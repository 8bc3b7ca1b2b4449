import ShapeLint.Cli.Run

/-!
# What a command reads and writes

Which directories a command looks through, which files it reads and which it may write. A caller
that holds files elsewhere fetches these and nothing more. Which files are imported and which are
checked depends on the configuration, so that they are known once its content is.
-/

namespace ShapeLint.Cli

open ShapeLint.Files (FileSystem Path)

/-- The paths of the files that imports select. -/
def importPaths (fs : FileSystem) (base : Path) (items : List Document) : List Path :=
  items.flatMap fun d =>
    match Schema.importGlob none 0 d with
    | .error _ => []
    | .ok pattern =>
      match Files.Glob.ofString pattern with
      | .ok glob => glob.select fs base
      | .error _ => []

/-- The files that a configuration is made of, as far as they are known. -/
def configSources (fs : FileSystem) (config : String) : List Path :=
  let p := Path.ofString config
  p ::
    match Config.readDocument fs p with
    | .error _ => []
    | .ok d =>
      match Schema.top none d >>= Schema.imports none with
      | .ok items => importPaths fs p.parent items
      | .error _ => []

/-- The files that a command may write. -/
def targets (fs : FileSystem) : Command → List Path
  | .check { output := { target? := some target, .. }, .. }
  | .find { output := { target? := some target, .. }, .. } =>
    if target = "-" then [] else ((Path.ofString target).expandHome? fs.homes).toList
  | .init config _ => [Path.ofString config]
  | _ => []

/-- The directories that a command looks through, with all that is in them. -/
def places : Command → List Path
  | .check o =>
    (Path.ofString o.config).parent :: (o.root?.map Path.ofString).toList ++
      o.paths.map Path.ofString
  | .find o => if o.paths.isEmpty then [.here] else o.paths.map Path.ofString
  | .test config => [(Path.ofString config).parent]
  | _ => []

/-- The files that a command reads, as far as they are known, and those that it may write. -/
def sources (fs : FileSystem) (c : Command) : List Path :=
  targets fs c ++
    match c with
    | .check o =>
      let root? := (o.root?.filter (· != "")).map Path.ofString
      configSources fs o.config ++
        match (Config.load fs (Path.ofString o.config) root?).2 with
        | .ok config => (checkSelection config o).files fs
        | .error _ => []
    | .find o => ({ paths := o.paths.map Path.ofString } : Files.Selection).files fs
    | .test config => configSources fs config
    | _ => []

end ShapeLint.Cli
