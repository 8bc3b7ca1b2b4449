import Mathlib.Data.Bool.Basic
import ShapeLint.Files.Tree

/-!
# What is written is read

A path may lead down, up again and down another way, while a file is put where the path leads in the
end. That a file holds what was written to it is therefore seen in two steps. `Located` says at
which plain names a walk stands, with the directories it came through. `Keeps` says that all
directories of one tree are directories in another, so that every walk through directories can be
repeated there.
-/

namespace ShapeLint.Files

/-! ## Names -/

namespace Path

lemma flatten_up (above names : List String) :
    flatten above (".." :: names) = flatten above.tail names := by
  rw [flatten]

lemma flatten_down {name : String} (h : name ≠ "..") (above names : List String) :
    flatten above (name :: names) = flatten (name :: above) names := by
  rw [flatten]
  exact h

/-- Names that follow others are looked at from where those lead. -/
lemma flatten_append (above names others : List String) :
    flatten above (names ++ others) = flatten (flatten above names).reverse others := by
  induction names generalizing above with
  | nil => simp [flatten]
  | cons name names ih =>
    by_cases hup : name = ".."
    · subst hup
      rw [List.cons_append, flatten_up, flatten_up, ih]
    · rw [List.cons_append, flatten_down hup, flatten_down hup, ih]

lemma append_names (p q : Path) :
    (p.append q).names = (if q.isAbsolute then [] else p.names) ++ q.names := by
  rw [append]
  split <;> simp

end Path

namespace FileTree

/-! ## Places -/

/-- The tree that plain names lead to, last name first, with the directories on the way, nearest
first. A walk is at such names at every time, whatever way it took. -/
inductive Located (root : FileTree) : List String → FileTree → List FileTree → Prop where
  | root : Located root [] root []
  | child {place : List String} {entries : List (String × FileTree)} {above : List FileTree}
      {name : String} {inner : FileTree} :
      Located root place (directory entries) above → name ≠ ".." →
      entries.lookup name = some inner →
      Located root (name :: place) inner (directory entries :: above)

/-- The tree that plain names lead to. No name leads up, and none leads on from a file. -/
def at? : FileTree → List String → Option FileTree
  | t, [] => some t
  | file _, _ :: _ => none
  | directory entries, name :: names =>
    match entries.lookup name with
    | none => none
    | some inner => inner.at? names

/-- Plain names that follow others lead on from where those lead. -/
lemma at?_append {t u : FileTree} {names : List String} (h : t.at? names = some u)
    (others : List String) :
    t.at? (names ++ others) = u.at? others := by
  induction names generalizing t with
  | nil => cases h; rfl
  | cons name names ih =>
    cases t with
    | file bytes => cases h
    | directory entries =>
      rw [List.cons_append, at?]
      rw [at?] at h
      cases hinner : entries.lookup name with
      | none => rw [hinner] at h; cases h
      | some inner =>
        rw [hinner] at h
        exact ih h

lemma at?_single (entries : List (String × FileTree)) (name : String) :
    (directory entries).at? [name] = entries.lookup name := by
  rw [at?]
  cases entries.lookup name <;> rfl

/-- Where a walk stands is what its plain names lead to. -/
lemma Located.at? {root t : FileTree} {place : List String} {above : List FileTree}
    (h : Located root place t above) :
    root.at? place.reverse = some t := by
  induction h with
  | root => rfl
  | child _ _ hlookup ih => rw [List.reverse_cons, at?_append ih, at?_single, hlookup]

/-! ## Walks -/

lemma follow_up (entries : List (String × FileTree)) (outer : FileTree) (above : List FileTree)
    (names : List String) :
    (directory entries).follow (outer :: above) (".." :: names) = outer.follow above names := by
  rw [follow, if_pos rfl]

lemma follow_up_root (entries : List (String × FileTree)) (names : List String) :
    (directory entries).follow [] (".." :: names) = (directory entries).follow [] names := by
  rw [follow, if_pos rfl]

lemma follow_down {name : String} (h : name ≠ "..") (entries : List (String × FileTree))
    (above : List FileTree) (names : List String) :
    (directory entries).follow above (name :: names) =
      match entries.lookup name with
      | none => .error .notFound
      | some inner => inner.follow (directory entries :: above) names := by
  cases hlookup : entries.lookup name <;> simp [follow, h, hlookup]

/-- From a directory a walk can always go up, at the root to the root itself. -/
lemma Located.up {root : FileTree} {place : List String} {entries : List (String × FileTree)}
    {above : List FileTree} (h : Located root place (directory entries) above) :
    ∃ outside, (directory entries).follow above [".."] = .ok (directory outside) := by
  cases above with
  | nil => exact ⟨entries, by rw [follow_up_root]; rfl⟩
  | cons outer above =>
    rw [follow_up]
    cases h with
    | child => exact ⟨_, rfl⟩

/-- A walk ends at the plain names that its names come to, and goes on from there. The induction is
on the names; going up drops the last of the plain names, or none at the root. -/
lemma Located.follow {root t u : FileTree} {place : List String} {above : List FileTree}
    (h : Located root place t above) {names : List String}
    (hfollow : t.follow above names = .ok u) :
    ∃ end' above', Path.flatten place names = end'.reverse ∧ Located root end' u above' ∧
      ∀ others, t.follow above (names ++ others) = u.follow above' others := by
  induction names generalizing t place above with
  | nil =>
    cases hfollow
    exact ⟨place, above, rfl, h, fun _ => rfl⟩
  | cons name names ih =>
    cases t with
    | file bytes => cases hfollow
    | directory entries =>
      -- Going up drops the last plain name, and at the root there is none to drop; going down adds
      -- one.
      by_cases hup : name = ".."
      · subst hup
        rw [Path.flatten_up]
        cases h with
        | root =>
          rw [follow_up_root] at hfollow
          obtain ⟨end', above', hend, hat, hmore⟩ := ih .root hfollow
          exact ⟨end', above', hend, hat,
            fun others => by rw [List.cons_append, follow_up_root, hmore]⟩
        | child houter _ _ =>
          rw [follow_up] at hfollow
          obtain ⟨end', above', hend, hat, hmore⟩ := ih houter hfollow
          exact ⟨end', above', hend, hat, fun others => by rw [List.cons_append, follow_up, hmore]⟩
      · rw [Path.flatten_down hup]
        rw [follow_down hup] at hfollow
        cases hinner : entries.lookup name with
        | none => rw [hinner] at hfollow; cases hfollow
        | some inner =>
          rw [hinner] at hfollow
          obtain ⟨end', above', hend, hat, hmore⟩ := ih (h.child hup hinner) hfollow
          exact ⟨end', above', hend, hat,
            fun others => by rw [List.cons_append, follow_down hup, hinner, ← hmore]⟩

/-- All directories of a tree are directories in another, with other entries perhaps. -/
def Keeps (old new : FileTree) : Prop :=
  ∀ names entries, old.at? names = some (directory entries) →
    ∃ entries', new.at? names = some (directory entries')

/-- A walk that ends in a directory has led through directories only. -/
lemma exists_directory_of_follow {t : FileTree} {above : List FileTree} {names : List String}
    {entries : List (String × FileTree)} (h : t.follow above names = .ok (directory entries)) :
    ∃ entries', t = directory entries' := by
  cases t with
  | directory entries' => exact ⟨entries', rfl⟩
  | file bytes => cases names <;> cases h

/-- Where directories are kept, a walk to a directory can be repeated. It is at the same plain names
in both trees all the time, and going up from there leads to the same names again. -/
lemma Keeps.follow {old new t u : FileTree} {place : List String} {above above' : List FileTree}
    (hkeeps : Keeps old new) (h : Located old place t above) (h' : Located new place u above')
    {names : List String} {entries : List (String × FileTree)}
    (hfollow : t.follow above names = .ok (directory entries)) :
    ∃ entries', u.follow above' names = .ok (directory entries') := by
  induction names generalizing t u place above above' with
  | nil =>
    cases hfollow
    obtain ⟨entries', hentries⟩ := hkeeps _ _ h.at?
    exact ⟨entries', by rw [Option.some.inj (h'.at?.symm.trans hentries)]; rfl⟩
  | cons name names ih =>
    obtain ⟨inside, rfl⟩ := exists_directory_of_follow hfollow
    -- Both walks stand at the same plain names, so both stand at directories.
    obtain ⟨inside', hinside⟩ := hkeeps _ _ h.at?
    obtain rfl : u = directory inside' := Option.some.inj (h'.at?.symm.trans hinside)
    by_cases hup : name = ".."
    · subst hup
      cases h with
      | root =>
        cases h'
        rw [follow_up_root] at hfollow ⊢
        exact ih .root .root hfollow
      | child houter _ _ =>
        cases h' with
        | child houter' _ _ =>
          rw [follow_up] at hfollow ⊢
          exact ih houter houter' hfollow
    · rw [follow_down hup] at hfollow ⊢
      cases hinner : inside.lookup name with
      | none => rw [hinner] at hfollow; cases hfollow
      | some inner =>
        rw [hinner] at hfollow
        obtain ⟨deeper, rfl⟩ := exists_directory_of_follow hfollow
        have hchild := h.child hup hinner
        obtain ⟨deeper', hdeeper⟩ := hkeeps _ _ hchild.at?
        have hinner' : inside'.lookup name = some (directory deeper') := by
          rw [List.reverse_cons, at?_append h'.at?, at?_single] at hdeeper
          exact hdeeper
        rw [hinner']
        exact ih hchild (h'.child hup hinner') hfollow

/-! ## Putting a file -/

/-- An entry that is replaced is found replaced, and no other changes. -/
lemma lookup_map_at (entries : List (String × FileTree)) (name other : String) (new : FileTree) :
    (entries.map fun (key, t) => (key, if key = name then new else t)).lookup other =
      if other = name then (entries.lookup name).map fun _ => new else entries.lookup other := by
  induction entries with
  | nil => simp
  | cons entry entries ih =>
    obtain ⟨key, t⟩ := entry
    rw [List.map_cons, List.lookup_cons, ih, List.lookup_cons, List.lookup_cons]
    by_cases hkey : other = key <;> by_cases hname : other = name <;> grind

lemma lookup_append_single (entries : List (String × FileTree)) (name : String) (new : FileTree)
    (h : entries.lookup name = none) (other : String) :
    (entries ++ [(name, new)]).lookup other =
      if other = name then some new else entries.lookup other := by
  rw [List.lookup_append]
  by_cases hname : other = name
  · subst hname
    simp [h]
  · have hne : (other == name) = false := by simpa using hname
    simp [List.lookup_cons, hne, hname]

/-- What is put into a directory stands there, and nothing else in the directory changes. An entry
with that name is replaced, and a new one comes last. -/
lemma exists_put_single (entries : List (String × FileTree)) (name : String) (bytes : List UInt8) :
    ∃ entries', (directory entries).put bytes [name] = directory entries' ∧
      ∀ other, entries'.lookup other =
        if other = name then some (file bytes) else entries.lookup other := by
  rw [put, change]
  cases h : entries.lookup name with
  | none => exact ⟨_, rfl, lookup_append_single entries name _ h⟩
  | some inner => exact ⟨_, rfl, fun other => by rw [lookup_map_at, h]; rfl⟩

/-- What is put below an entry of a directory is put into the entry. -/
lemma exists_put_cons {entries : List (String × FileTree)} {name : String} {inner : FileTree}
    (h : entries.lookup name = some inner) (bytes : List UInt8) (names : List String) :
    ∃ entries', (directory entries).put bytes (name :: names) = directory entries' ∧
      ∀ other, entries'.lookup other =
        if other = name then some (inner.put bytes names) else entries.lookup other := by
  rw [put, change, h]
  exact ⟨_, rfl, fun other => by rw [lookup_map_at, h]; rfl⟩

section

variable {t : FileTree} {place : List String} {entries : List (String × FileTree)}
  (bytes : List UInt8) (name : String)

/-- A file that is put into a directory stands there. -/
lemma put_at? (h : t.at? place = some (directory entries)) :
    (t.put bytes (place ++ [name])).at? (place ++ [name]) = some (file bytes) := by
  induction place generalizing t with
  | nil =>
    cases h
    obtain ⟨entries', hput, hlookup⟩ := exists_put_single entries name bytes
    rw [List.nil_append, hput, at?_single, hlookup, if_pos rfl]
  | cons first place ih =>
    cases t with
    | file old => cases h
    | directory inside =>
      rw [at?] at h
      cases hinner : inside.lookup first with
      | none => rw [hinner] at h; cases h
      | some inner =>
        rw [hinner] at h
        -- The change is made in the entry that the names lead through, and is found there again.
        obtain ⟨entries', hput, hlookup⟩ := exists_put_cons hinner bytes (place ++ [name])
        rw [List.cons_append, hput, at?, hlookup, if_pos rfl]
        exact ih h

/-- A file is put where there is no directory, so all directories stay. -/
lemma keeps_put (h : t.at? place = some (directory entries))
    (hfile : ∀ inside, entries.lookup name ≠ some (directory inside)) :
    Keeps t (t.put bytes (place ++ [name])) := by
  induction place generalizing t with
  | nil =>
    cases h
    obtain ⟨entries', hput, hlookup⟩ := exists_put_single entries name bytes
    rintro (_ | ⟨other, names⟩) found hfound
    · exact ⟨entries', congrArg some hput⟩
    · rw [List.nil_append, hput, at?, hlookup]
      rw [at?] at hfound
      by_cases hother : other = name
      · subst hother
        cases hinner : entries.lookup other with
        | none => rw [hinner] at hfound; cases hfound
        | some inner =>
          rw [hinner] at hfound
          cases inner with
          -- What is replaced is no directory, so none is lost.
          | file old => cases names <;> cases hfound
          | directory inside => exact absurd hinner (hfile inside)
      · rw [if_neg hother]
        exact ⟨found, hfound⟩
  | cons first place ih =>
    cases t with
    | file old => cases h
    | directory inside =>
      rw [at?] at h
      cases hinner : inside.lookup first with
      | none => rw [hinner] at h; cases h
      | some inner =>
        rw [hinner] at h
        obtain ⟨entries', hput, hlookup⟩ := exists_put_cons hinner bytes (place ++ [name])
        rintro (_ | ⟨other, names⟩) found hfound
        · exact ⟨entries', congrArg some hput⟩
        · rw [List.cons_append, hput, at?, hlookup]
          rw [at?] at hfound
          by_cases hother : other = first
          · subst hother
            rw [hinner] at hfound
            rw [if_pos rfl]
            exact ih h names found hfound
          · rw [if_neg hother]
            exact ⟨found, hfound⟩

end

end FileTree

/-! ## Reading what was written -/

namespace FileSystem

variable {fs fs' : FileSystem} {p : Path} {bytes : List UInt8}

/-- The path of a file is that of its directory and one name more, be it absolute or not. -/
lemma names_of_parent (fs : FileSystem) (h : p.names ≠ []) :
    ∃ init last, (fs.here.append p).names = init ++ [last] ∧
      (fs.here.append p.parent).names = init := by
  obtain ⟨front, last, hp⟩ := (List.eq_nil_or_concat p.names).resolve_left h
  refine ⟨(if p.isAbsolute then [] else fs.here.names) ++ front, last, ?_, ?_⟩
  · rw [Path.append_names, hp, List.concat_eq_append, List.append_assoc]
  · rw [Path.append_names, Path.parent, hp]
    simp [Path.isAbsolute]

/-- A file that was written is there, in a directory, and holds what was written. -/
lemma find_of_write (h : fs.write p bytes = .ok fs') :
    fs'.find p = .ok (.file bytes) ∧ ∃ entries, fs'.find p.parent = .ok (.directory entries) := by
  rw [write] at h
  split at h
  case h_4 entries hparent hnot =>
    cases h
    have hnames : p.names ≠ [] := by
      intro hempty
      have hself : p.parent = p := by cases p; simp_all [Path.parent]
      exact hnot _ (hself ▸ hparent)
    obtain ⟨init, last, hp, hinit⟩ := names_of_parent fs hnames
    rw [find, hinit] at hparent
    rw [find, hp] at hnot
    obtain ⟨place, above, hplace, hat, hmore⟩ := FileTree.Located.root.follow hparent
    -- A path that leads up in the end leads to a directory, and nothing is written there.
    have hlast : last ≠ ".." := by
      rintro rfl
      obtain ⟨outside, hup⟩ := hat.up
      exact hnot outside (by rw [hmore, hup])
    have hfile : ∀ inside, entries.lookup last ≠ some (.directory inside) := by
      intro inside hinside
      exact hnot inside (by rw [hmore, FileTree.follow_down hlast, hinside]; rfl)
    have hresolve : (fs.resolve p).names = place.reverse ++ [last] := by
      rw [resolve, Path.resolve, hp, Path.flatten_append, hplace, List.reverse_reverse,
        Path.flatten_down hlast]
      exact List.reverse_cons
    rw [hresolve]
    -- The walk to the directory is repeated in the new tree and ends at the same plain names.
    have hkeeps := FileTree.keeps_put bytes last hat.at? hfile
    obtain ⟨entries', hparent'⟩ := hkeeps.follow .root .root hparent
    obtain ⟨place', above', hplace', hat', hmore'⟩ := FileTree.Located.root.follow hparent'
    obtain rfl : place' = place := List.reverse_inj.1 (hplace'.symm.trans hplace)
    have hlookup : entries'.lookup last = some (.file bytes) := by
      rw [← FileTree.at?_single, ← FileTree.at?_append hat'.at?]
      exact FileTree.put_at? bytes last hat.at?
    refine ⟨?_, entries', ?_⟩
    · rw [find, hp, hmore', FileTree.follow_down hlast, hlookup]
      rfl
    · rw [find, hinit, hparent']
  all_goals cases h

lemma read_of_write (h : fs.write p bytes = .ok fs') : fs'.read p = .ok bytes := by
  rw [read, (find_of_write h).1]

/-- A file that was written can be written again: its directory is there, and it is none itself. -/
theorem exists_write_of_write (h : fs.write p bytes = .ok fs') (others : List UInt8) :
    ∃ fs'', fs'.write p others = .ok fs'' := by
  obtain ⟨hfile, entries, hparent⟩ := find_of_write h
  rw [write, hparent, hfile]
  exact ⟨_, rfl⟩

end FileSystem

end ShapeLint.Files
