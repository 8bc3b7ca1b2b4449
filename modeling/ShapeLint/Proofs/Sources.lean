import ShapeLint.Proofs.Shape

/-!
# Where rules come from

The written rules of a configuration are its own and, after them, those that it imports
(`Config.Gathers`). An import names files by a glob. They are read in the order of their paths, and
each holds its rules as a list or under a key; so the written rules have an order that does not
depend on the order in which a directory lists its entries.

Each reader has its relation: what a file gives, what an import gives, and what a configuration
gathers. The relations say what is read from where, and nothing of the log that is kept meanwhile.
-/

namespace ShapeLint

/-! ## The order of paths -/

namespace Files

namespace Path

lemma namesLe_total (as bs : List String) : namesLe as bs = true ∨ namesLe bs as = true := by
  fun_induction namesLe as bs with
  | case1 bs => exact .inl rfl
  | case2 a as => exact .inr rfl
  | case3 a as bs ih => simpa [namesLe] using ih
  | case4 a as b bs hne =>
    simp only [namesLe, if_neg (Ne.symm hne), decide_eq_true_eq]
    rcases String.le_total a b with h | h
    · exact .inl (Std.lt_of_le_of_ne h hne)
    · exact .inr (Std.lt_of_le_of_ne h (Ne.symm hne))

/-- The order of names is that of dictionaries, name by name, and a path comes before those that go
on from it. -/
lemma namesLe_trans {as bs cs : List String} (h : namesLe as bs = true)
    (h' : namesLe bs cs = true) :
    namesLe as cs = true := by
  fun_induction namesLe as bs generalizing cs with
  | case1 => rfl
  | case2 => cases h
  | case3 b as bs ih =>
    cases cs with
    | nil => cases h'
    | cons c cs =>
      simp only [namesLe] at h' ⊢
      split
      · exact ih h (by simpa [*] using h')
      · simpa [*] using h'
  | case4 a as b bs hne =>
    cases cs with
    | nil => cases h'
    | cons c cs =>
      -- The first names decide, unless the last two are the same: then they decide as they did.
      have hab : a < b := of_decide_eq_true h
      simp only [namesLe] at h' ⊢
      have hac : a < c := by
        split at h'
        · simp_all
        · exact String.lt_trans hab (of_decide_eq_true h')
      rw [if_neg (String.ne_of_lt hac)]
      exact decide_eq_true hac

/-- Sorted paths are in order: the order is total and transitive, which is all that sorting
needs. -/
lemma sort_pairwise (ps : List Path) : (sort ps).Pairwise fun p q => p.le q = true := by
  have htrans (p q r : Path) : p.le q = true → q.le r = true → p.le r = true := namesLe_trans
  have htotal (p q : Path) : (p.le q || q.le p) = true := by
    rw [Bool.or_eq_true]
    exact namesLe_total ..
  exact List.pairwise_mergeSort htrans htotal ps

end Path

/-- The paths are those that a glob selects under a directory, in their order. They are a
permutation of what is found, however the directories list their entries. -/
def Glob.Lists (fs : FileSystem) (base : Path) (glob : Glob) (paths : List Path) : Prop :=
  paths.Perm
      (if fs.isDirectory base then selectFrom fs glob.onlyDirectories glob.parts base else []) ∧
    paths.Pairwise fun p q => p.le q = true

lemma Glob.lists_select (fs : FileSystem) (base : Path) (glob : Glob) :
    glob.Lists fs base (glob.select fs base) := by
  rw [Lists, select]
  split
  · exact ⟨List.mergeSort_perm .., Path.sort_pairwise _⟩
  · exact ⟨.refl _, .nil⟩

end Files

/-! ## Files and imports -/

namespace Config

open Document (under)
open Files (FileSystem Glob Path)
open Schema (Gives ruleItems)

/-- What should be the rules in a file: the items of a list, or those under the key of a mapping. A
file without a document has none. -/
def fileItems : Document → List Document
  | .list items => items
  | .map entries => ruleItems (under "rules" entries)
  | _ => []

section

variable (fs : FileSystem)

/-- The file holds the written rules. -/
def FileGives (p : Path) (specs : List RuleSpec) : Prop :=
  ∃ d, readDocument fs p = .ok d ∧ List.Forall₂ Gives (fileItems d) specs

/-- The import names files by a glob, and these hold the written rules, one file after another. -/
def ImportGives (base : Path) (d : Document) (specs : List RuleSpec) : Prop :=
  ∃ entries pattern glob paths found, d = .map entries ∧ under "load" entries = .text pattern ∧
    Glob.ofString pattern = .ok glob ∧ glob.Lists fs base paths ∧
    List.Forall₂ (FileGives fs) paths found ∧ specs = found.flatten

/-- The imports of a configuration. There are none where what stands for them counts as nothing. -/
def HasImports (entries : List (Document × Document)) (items : List Document) : Prop :=
  (under "import" entries).isBlank = true ∧ items = [] ∨ under "import" entries = .list items

/-- The configuration has the written rules: its own, and after them those of its imports, in the
order in which these are named. -/
inductive Gathers (base : Path) : Document → List RuleSpec → Prop where
  | nothing : Gathers base .null []
  | map {entries : List (Document × Document)} {items : List Document} {own : List RuleSpec}
      {found : List (List RuleSpec)} :
      List.Forall₂ Gives (ruleItems (under "rules" entries)) own → HasImports entries items →
      List.Forall₂ (ImportGives fs base) items found →
      Gathers base (.map entries) (own ++ found.flatten)

end

section

variable {fs : FileSystem} {base : Path} {origin : Schema.Origin} {specs : List RuleSpec}

lemma fileGives_of_fileSpecs {p : Path} (h : fileSpecs fs p = .ok specs) :
    FileGives fs p specs := by
  rw [fileSpecs] at h
  cases hd : readDocument fs p with
  | error e => rw [hd] at h; cases h
  | ok d =>
    rw [hd] at h
    refine ⟨d, hd, ?_⟩
    cases d with
    | null => cases h; exact .nil
    | list items => exact Schema.gives_of_rulesFrom (some p) h
    | map entries => exact Schema.gives_of_rules (some p) h
    | _ => cases h

/-- Files are read one after another, and the first that fails ends reading. -/
lemma forall₂_of_filesSpecs {paths : List Path} (h : (filesSpecs fs paths).2 = .ok specs) :
    ∃ found, List.Forall₂ (FileGives fs) paths found ∧ specs = found.flatten := by
  induction paths generalizing specs with
  | nil => cases h; exact ⟨[], .nil, rfl⟩
  | cons p ps ih =>
    rw [filesSpecs] at h
    cases hp : fileSpecs fs p with
    | error e => rw [hp] at h; cases h
    | ok first =>
      rw [hp] at h
      obtain ⟨others, hothers, hspecs⟩ := exists_of_bind_eq_ok h
      cases hspecs
      obtain ⟨found, hfound, rfl⟩ := ih hothers
      exact ⟨first :: found, .cons (fileGives_of_fileSpecs hp) hfound, rfl⟩

/-- What a glob selects is sorted and read. That nothing is selected is only told to the log. -/
lemma exists_lists_of_globSpecs {pattern : String} (h : (globSpecs fs base pattern).2 = .ok specs) :
    ∃ glob paths found, Glob.ofString pattern = .ok glob ∧ glob.Lists fs base paths ∧
      List.Forall₂ (FileGives fs) paths found ∧ specs = found.flatten := by
  rw [globSpecs] at h
  cases hglob : Glob.ofString pattern with
  | error e => rw [hglob] at h; cases h
  | ok glob =>
    rw [hglob] at h
    dsimp only at h
    have hfiles : (filesSpecs fs (glob.select fs base)).2 = .ok specs := by
      cases hselect : glob.select fs base <;> rw [hselect] at h <;> exact h
    obtain ⟨found, hfound, hspecs⟩ := forall₂_of_filesSpecs hfiles
    exact ⟨glob, _, found, rfl, glob.lists_select fs base, hfound, hspecs⟩

lemma load_of_importGlob {i : Nat} {d : Document} {pattern : String}
    (h : Schema.importGlob origin i d = .ok pattern) :
    ∃ entries, d = .map entries ∧ under "load" entries = .text pattern := by
  obtain ⟨entries, hentries, h⟩ := exists_of_bind_eq_ok h
  cases d with
  | map found =>
    cases hentries
    exact ⟨entries, rfl, Schema.isText_of_text origin h⟩
  | _ => cases hentries

/-- Imports are read one after another, each with its glob. -/
lemma forall₂_of_importSpecs {items : List Document} {i : Nat}
    (h : (importSpecs fs base origin i items).2 = .ok specs) :
    ∃ found, List.Forall₂ (ImportGives fs base) items found ∧ specs = found.flatten := by
  induction items generalizing i specs with
  | nil => cases h; exact ⟨[], .nil, rfl⟩
  | cons d ds ih =>
    rw [importSpecs] at h
    cases hpattern : Schema.importGlob origin i d with
    | error e => rw [hpattern] at h; cases h
    | ok pattern =>
      rw [hpattern] at h
      cases hglob : globSpecs fs base pattern with
      | mk log result =>
        cases result with
        | error e => simp [hglob] at h
        | ok first =>
          simp only [hglob] at h
          obtain ⟨others, hothers, hspecs⟩ := exists_of_bind_eq_ok h
          cases hspecs
          obtain ⟨found, hfound, rfl⟩ := ih hothers
          obtain ⟨entries, hd, hload⟩ := load_of_importGlob hpattern
          obtain ⟨glob, paths, files, hofString, hlists, hfiles, hfirst⟩ :=
            exists_lists_of_globSpecs (congrArg Prod.snd hglob)
          have hgives : ImportGives fs base d first :=
            ⟨entries, pattern, glob, paths, files, hd, hload, hofString, hlists, hfiles, hfirst⟩
          exact ⟨first :: found, .cons hgives hfound, rfl⟩

lemma hasImports_of_imports {entries : List (Document × Document)} {items : List Document}
    (h : Schema.imports origin entries = .ok items) : HasImports entries items := by
  have himports :
      (if (under "import" entries).isBlank then .ok []
        else Schema.list origin "import" (under "import" entries)) = Except.ok items :=
    h
  split at himports
  case isTrue hblank =>
    cases himports
    exact .inl ⟨hblank, rfl⟩
  case isFalse =>
    cases hd : under "import" entries with
    | list found =>
      rw [hd] at himports
      cases himports
      exact .inr hd
    | _ => rw [hd] at himports; cases himports

lemma forall₂_of_imported {entries : List (Document × Document)}
    (h : (imported fs base origin entries).2 = .ok specs) :
    ∃ items found, HasImports entries items ∧ List.Forall₂ (ImportGives fs base) items found ∧
      specs = found.flatten := by
  rw [imported] at h
  cases himports : Schema.imports origin entries with
  | error e => rw [himports] at h; cases h
  | ok items =>
    rw [himports] at h
    obtain ⟨found, hfound, hspecs⟩ := forall₂_of_importSpecs h
    exact ⟨items, found, hasImports_of_imports himports, hfound, hspecs⟩

/-- Ids are compared after the excluded paths are read, and among all rules, imported ones
included. -/
lemma nodup_of_excluded {entries : List (Document × Document)} {exclude : List String}
    (h : excluded origin entries specs = .ok exclude) : (specs.map (·.id)).Nodup := by
  rw [excluded] at h
  cases hexclude : Schema.textsAt origin "exclude" "exclude" entries with
  | error e => rw [hexclude] at h; cases h
  | ok found =>
    rw [hexclude] at h
    obtain ⟨_, hdistinct, -⟩ := exists_of_bind_eq_ok h
    exact ((Schema.distinct_answers origin specs []).ok_iff.1 ⟨_, hdistinct⟩).1

/-- The rules of a configuration and what is reported of them come from the written rules that it
has, and these have different ids. -/
theorem exists_gathers_of_ofDocument {path? root? : Option Path} {d : Document} {c : Config}
    (h : (ofDocument fs path? root? d).2 = .ok c) :
    ∃ specs, Gathers fs ((path?.map (·.parent)).getD .here) d specs ∧ (specs.map (·.id)).Nodup ∧
      c.rules = compiled specs ∧ c.ruleErrors = disabled specs := by
  cases d with
  | null =>
    cases h
    exact ⟨[], .nothing, .nil, rfl, rfl⟩
  | map entries =>
    rw [Schema.snd_ofDocument] at h
    obtain ⟨_, -, h⟩ := exists_of_bind_eq_ok h
    obtain ⟨own, hown, h⟩ := exists_of_bind_eq_ok h
    obtain ⟨others, himported, h⟩ := exists_of_bind_eq_ok h
    obtain ⟨exclude, hexcluded, h⟩ := exists_of_bind_eq_ok h
    cases h
    obtain ⟨items, found, hitems, hfound, rfl⟩ := forall₂_of_imported himported
    exact ⟨_, .map (Schema.gives_of_rules path? hown) hitems hfound,
      nodup_of_excluded hexcluded, rfl, rfl⟩
  | _ => cases h

end

end Config

end ShapeLint
