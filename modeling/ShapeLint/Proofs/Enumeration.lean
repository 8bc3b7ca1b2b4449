import Mathlib.Data.List.Induction
import ShapeLint.Files.Selection

/-!
# Each file is selected once

Selecting asks four things of paths: whether one leads to a directory, which files lie under it,
where it leads to and whether it is left out. `Survey` holds the answers, and `Survey.run` goes
through the paths given and through the candidates of each, keeping what it has seen. It yields
exactly the candidates that are the first to lead to their place and are not left out
(`Survey.firsts`), so no place is yielded twice, and paths that lead nowhere new change nothing.

A selection in a file system is such a run (`Selection.files_eq_run`).
-/

namespace ShapeLint.Files

/-- What selecting asks of paths: whether one leads to a directory, which files lie under a
directory in their order, which place a path leads to, and whether it is left out.

Nothing is assumed of the answers. A path and its place may have different names, and two paths may
lead to one place. -/
structure Survey where
  isDirectory : Path → Bool
  listing : Path → List Path
  resolve : Path → Path
  isExcluded : Path → Bool

namespace Survey

/-- How far a run has come: the places that candidates led to, whether these were yielded or left
out, and the candidates that were yielded, in order. -/
structure Progress where
  seen : List Path := []
  yielded : List Path := []

/-- The paths that are looked at; the directory at hand if none is given. -/
def starts (paths : List Path) : List Path :=
  if paths.isEmpty then [.here] else paths

variable (v : Survey)

/-- The files that one path stands for: those under it if it is a directory, and otherwise itself,
be there such a file or not. -/
def candidatesAt (p : Path) : List Path :=
  if v.isDirectory p then v.listing p else [p]

/-- The files that all paths stand for. -/
def candidates (paths : List Path) : List Path :=
  (starts paths).flatMap v.candidatesAt

/-- Taking one candidate. A place counts as seen even if the candidate for it is left out, so no
other path brings it back. -/
def step (s : Progress) (c : Path) : Progress :=
  if v.resolve c ∈ s.seen then s
  else
    { seen := v.resolve c :: s.seen
      yielded := if v.isExcluded c then s.yielded else s.yielded ++ [c] }

/-- Taking the candidates of one path. -/
def stepAll (s : Progress) (p : Path) : Progress :=
  (v.candidatesAt p).foldl v.step s

/-- What is yielded for the paths given. -/
def run (paths : List Path) : List Path :=
  ((starts paths).foldl v.stepAll {}).yielded

/-- Whether no candidate before the one at an index leads to the same place. -/
def isFirst (cs : List Path) (x : Path × Nat) : Bool :=
  v.resolve x.1 ∉ (cs.take x.2).map v.resolve

/-- The candidates that are the first to lead to their place and are not left out, in order. -/
def firsts (cs : List Path) : List Path :=
  (cs.zipIdx.filter fun x => v.isFirst cs x && !v.isExcluded x.1).map Prod.fst

/-! ## What one more candidate adds -/

variable {v}

/-- Whether a candidate is the first one depends on those in front of it alone. -/
lemma isFirst_append_of_le {cs : List Path} {x : Path × Nat} (h : x.2 ≤ cs.length)
    (ds : List Path) :
    v.isFirst (cs ++ ds) x = v.isFirst cs x := by
  rw [isFirst, isFirst, List.take_append_of_le_length h]

/-- One more candidate at the end is added if its place is new and it is not left out, and changes
nothing for those in front of it. -/
lemma firsts_concat (cs : List Path) (c : Path) :
    v.firsts (cs ++ [c]) =
      v.firsts cs ++
        if v.resolve c ∈ cs.map v.resolve ∨ v.isExcluded c = true then [] else [c] := by
  -- What stands in front of an earlier candidate is not changed by one behind it.
  have hold : (cs.zipIdx.filter fun x => v.isFirst (cs ++ [c]) x && !v.isExcluded x.1) =
      cs.zipIdx.filter fun x => v.isFirst cs x && !v.isExcluded x.1 := by
    refine List.filter_congr fun x hx => ?_
    rw [isFirst_append_of_le (Nat.le_of_lt (List.snd_lt_of_mem_zipIdx hx))]
  have hnew : v.isFirst (cs ++ [c]) (c, cs.length) = decide (v.resolve c ∉ cs.map v.resolve) := by
    rw [isFirst_append_of_le (Nat.le_refl _), isFirst, List.take_length]
  rw [firsts, firsts, List.zipIdx_append, List.filter_append, hold, List.map_append]
  congr 1
  by_cases hseen : v.resolve c ∈ cs.map v.resolve <;> by_cases hout : v.isExcluded c = true <;>
    simp [hnew, hseen, hout]

lemma mem_of_mem_firsts {cs : List Path} {c : Path} (h : c ∈ v.firsts cs) : c ∈ cs := by
  obtain ⟨x, hx, rfl⟩ := List.mem_map.1 h
  exact List.fst_mem_of_mem_zipIdx (List.mem_filter.1 hx).1

/-- Two firsts lead to two places. The induction is from the back, as a run goes on from the
front. -/
lemma nodup_firsts (cs : List Path) : ((v.firsts cs).map v.resolve).Nodup := by
  induction cs using List.reverseRecOn with
  | nil => exact List.nodup_nil
  | append_singleton cs c ih =>
    rw [firsts_concat]
    split
    case isTrue => simpa using ih
    case isFalse h =>
      rw [List.map_append]
      refine List.nodup_append.2 ⟨ih, by simp, ?_⟩
      rintro _ hmem _ hc rfl
      obtain ⟨d, hd, heq⟩ := List.mem_map.1 hmem
      have hplace : v.resolve d = v.resolve c := heq.trans (List.mem_singleton.1 hc)
      exact h (.inl (hplace ▸ List.mem_map_of_mem (mem_of_mem_firsts hd)))

/-- A candidate is missing only if one that leads to the same place is left out. Otherwise the first
one for its place was yielded, which may be itself. -/
lemma exists_of_mem {cs : List Path} {c : Path} (h : c ∈ cs) :
    (∃ d ∈ v.firsts cs, v.resolve d = v.resolve c) ∨
      ∃ d ∈ cs, v.resolve d = v.resolve c ∧ v.isExcluded d = true := by
  induction cs using List.reverseRecOn generalizing c with
  | nil => cases h
  | append_singleton cs last ih =>
    rw [firsts_concat]
    by_cases hseen : v.resolve c ∈ cs.map v.resolve
    · obtain ⟨c', hc', heq⟩ := List.mem_map.1 hseen
      rcases ih hc' with ⟨d, hd, hplace⟩ | ⟨d, hd, hplace, hout⟩
      · exact .inl ⟨d, List.mem_append_left _ hd, hplace.trans heq⟩
      · exact .inr ⟨d, List.mem_append_left _ hd, hplace.trans heq, hout⟩
    · -- No earlier candidate leads there, so this is the last one.
      have hlast : c = last := by
        rcases List.mem_append.1 h with hc | hc
        · exact absurd (List.mem_map_of_mem hc) hseen
        · exact List.mem_singleton.1 hc
      subst hlast
      by_cases hout : v.isExcluded c = true
      · exact .inr ⟨c, List.mem_append_right _ (List.mem_singleton_self c), rfl, hout⟩
      · refine .inl ⟨c, List.mem_append_right _ ?_, rfl⟩
        rw [if_neg (not_or.2 ⟨hseen, hout⟩)]
        exact List.mem_singleton_self c

/-- Candidates that lead nowhere new are all left away. -/
lemma firsts_append_of_seen (cs : List Path) {ds : List Path}
    (h : ∀ d ∈ ds, v.resolve d ∈ cs.map v.resolve) :
    v.firsts (cs ++ ds) = v.firsts cs := by
  induction ds using List.reverseRecOn with
  | nil => rw [List.append_nil]
  | append_singleton ds d ih =>
    have hseen : v.resolve d ∈ (cs ++ ds).map v.resolve := by
      rw [List.map_append]
      exact List.mem_append_left _ (h d (by simp))
    rw [← List.append_assoc, firsts_concat, if_pos (.inl hseen), List.append_nil]
    exact ih fun d' hd' => h d' (List.mem_append_left _ hd')

/-! ## What a run has done -/

/-- What is known when a run has taken some candidates: it has seen the places of all of them, and
has yielded the firsts among them. -/
structure Reached (v : Survey) (cs : List Path) (s : Progress) : Prop where
  mem_seen : ∀ place, place ∈ s.seen ↔ place ∈ cs.map v.resolve
  yielded_eq : s.yielded = v.firsts cs

lemma Reached.start : Reached v [] {} where
  mem_seen place := by simp
  yielded_eq := rfl

/-- The invariant is kept by every candidate: one for a place that was seen is dropped, and one for
a new place is yielded unless it is left out. -/
lemma Reached.step {cs : List Path} {s : Progress} (h : Reached v cs s) (c : Path) :
    Reached v (cs ++ [c]) (v.step s c) := by
  rw [Survey.step]
  split
  case isTrue hseen =>
    have hseen' := (h.mem_seen _).1 hseen
    refine ⟨fun place => ?_, ?_⟩
    · rw [h.mem_seen, List.map_append, List.mem_append, List.map_singleton, List.mem_singleton]
      exact ⟨.inl, fun hp => hp.elim id fun hp => hp ▸ hseen'⟩
    · rw [h.yielded_eq, firsts_concat, if_pos (.inl hseen'), List.append_nil]
  case isFalse hseen =>
    have hseen' : v.resolve c ∉ cs.map v.resolve := mt (h.mem_seen _).2 hseen
    refine ⟨fun place => ?_, ?_⟩
    · rw [List.mem_cons, h.mem_seen, List.map_append, List.mem_append, List.map_singleton,
        List.mem_singleton, or_comm]
    · rw [h.yielded_eq, firsts_concat]
      -- An excluded path is seen all the same, but not yielded.
      by_cases hout : v.isExcluded c = true
      · rw [if_pos hout, if_pos (.inr hout), List.append_nil]
      · rw [if_neg hout, if_neg (not_or.2 ⟨hseen', hout⟩)]

lemma Reached.foldl {cs : List Path} {s : Progress} (h : Reached v cs s) (ds : List Path) :
    Reached v (cs ++ ds) (ds.foldl v.step s) := by
  induction ds generalizing cs s with
  | nil => rwa [List.append_nil]
  | cons d ds ih =>
    rw [List.append_cons]
    exact ih (h.step d)

/-- A run goes through the paths, and for each through its candidates; both loops together go
through all candidates in order. -/
lemma Reached.foldl_stepAll {cs : List Path} {s : Progress} (h : Reached v cs s) (ps : List Path) :
    Reached v (cs ++ ps.flatMap v.candidatesAt) (ps.foldl v.stepAll s) := by
  induction ps generalizing cs s with
  | nil => simpa using h
  | cons p ps ih =>
    rw [List.flatMap_cons, ← List.append_assoc]
    exact ih (h.foldl (v.candidatesAt p))

/-- A run yields the firsts among all its candidates. -/
lemma run_eq_firsts (paths : List Path) : v.run paths = v.firsts (v.candidates paths) :=
  (Reached.start.foldl_stepAll (starts paths)).yielded_eq

/-- More paths behind those looked at bring their candidates behind the others. With the paths as
given this would fail for none: there the directory at hand is looked at only as long as nothing
else is. -/
lemma candidates_starts_append (paths more : List Path) :
    v.candidates (starts paths ++ more) = v.candidates paths ++ more.flatMap v.candidatesAt := by
  have hne : (starts paths ++ more).isEmpty = false := by
    cases paths <;> rfl
  rw [candidates, starts, hne, candidates]
  exact List.flatMap_append

end Survey

/-! ## Selections -/

namespace Selection

variable (fs : FileSystem)

/-- What a selection is told in a file system. The files under a directory are those that the glob
for sources finds there, sorted. -/
def survey (s : Selection) : Survey where
  isDirectory := fs.isDirectory
  listing p :=
    (Glob.select fs { parts := [.deep, .wild javaFiles], onlyDirectories := false } p).filter
      fs.isFile
  resolve := fs.resolve
  isExcluded := s.isExcluded fs

variable {fs}

@[simp] lemma survey_resolve (s : Selection) (p : Path) : (s.survey fs).resolve p = fs.resolve p :=
  rfl

@[simp] lemma survey_isExcluded (s : Selection) (p : Path) :
    (s.survey fs).isExcluded p = s.isExcluded fs p := rfl

/-- The two ways to go through candidates agree: a run that keeps what it has seen, and a filter
behind the list of those that lead somewhere new. -/
lemma yielded_foldl_step (s : Selection) (cs : List Path) (done : Survey.Progress) :
    (cs.foldl (s.survey fs).step done).yielded =
      done.yielded ++ (unseen fs done.seen cs).filter fun p => !s.isExcluded fs p := by
  induction cs generalizing done with
  | nil => simp [unseen]
  | cons c cs ih =>
    rw [List.foldl_cons, ih, Survey.step, unseen]
    by_cases hseen : fs.resolve c ∈ done.seen
    · simp [hseen]
    · by_cases hout : s.isExcluded fs c = true <;> simp [hseen, hout]

/-- The files that are selected are what a run yields. -/
lemma files_eq_run (s : Selection) : s.files fs = (s.survey fs).run s.paths := by
  have hloops :
      s.starts.foldl (s.survey fs).stepAll {} = (s.candidates fs).foldl (s.survey fs).step {} :=
    List.foldl_flatMap.symm
  calc s.files fs
      = ((s.candidates fs).foldl (s.survey fs).step {}).yielded := (yielded_foldl_step s _ {}).symm
    _ = (s.survey fs).run s.paths := congrArg Survey.Progress.yielded hloops.symm

/-- A run yields exactly the first candidates for their places that are not left out. So it yields
no place twice, it loses a candidate only to one for the same place, and more paths that lead
nowhere new change nothing. Every selection is such a run. -/
theorem run_yields_each_once (v : Survey) (paths : List Path) :
    v.run paths = v.firsts (v.candidates paths) ∧
      ((v.run paths).map v.resolve).Nodup ∧
      (∀ c ∈ v.candidates paths, (∃ d ∈ v.run paths, v.resolve d = v.resolve c) ∨
        ∃ d ∈ v.candidates paths, v.resolve d = v.resolve c ∧ v.isExcluded d = true) ∧
      (∀ more : List Path,
        (∀ c ∈ more.flatMap v.candidatesAt, v.resolve c ∈ (v.candidates paths).map v.resolve) →
        v.run (Survey.starts paths ++ more) = v.run paths) ∧
      ∀ (fs : FileSystem) (s : Selection), s.files fs = (s.survey fs).run s.paths := by
  have hrun := v.run_eq_firsts paths
  refine ⟨hrun, hrun ▸ Survey.nodup_firsts _, fun c hc => hrun ▸ Survey.exists_of_mem hc,
    fun more hmore => ?_, fun fs s => s.files_eq_run⟩
  calc v.run (Survey.starts paths ++ more)
      = v.firsts (v.candidates paths ++ more.flatMap v.candidatesAt) := by
        rw [Survey.run_eq_firsts, Survey.candidates_starts_append]
    _ = v.firsts (v.candidates paths) := Survey.firsts_append_of_seen _ hmore
    _ = v.run paths := hrun.symm

/-- A directory with two files, and the directory at hand. -/
def twoFiles : FileSystem :=
  { tree := .directory [("d", .directory [("A.java", .file []), ("B.java", .file [])])]
    here := { root := "/", names := ["d"] } }

/-- The path of one of the files. -/
def direct : Path :=
  { names := ["A.java"] }

/-- A path that takes a detour to the same file. -/
def detour : Path :=
  { names := ["..", "d", "A.java"] }

/-- Without a path, both files are found. The listing is sorted by a merge sort that does not
evaluate, so it is rewritten by hand. -/
lemma candidates_twoFiles :
    candidates twoFiles { paths := [] } = [direct, { names := ["B.java"] }] := by
  have hlisted : Glob.selectFrom twoFiles false [.deep, .wild javaFiles] .here =
      [direct, { names := ["B.java"] }] := by
    decide +kernel
  have hsorted : Path.sort [direct, { names := ["B.java"] }] = [direct, { names := ["B.java"] }] :=
    List.mergeSort_of_pairwise (by decide)
  have hdirectory : twoFiles.isDirectory .here = true := by decide
  have hfiles : twoFiles.isFile direct = true ∧ twoFiles.isFile { names := ["B.java"] } = true := by
    decide
  rw [candidates, show starts { paths := [] } = [.here] from rfl, List.flatMap_singleton,
    candidatesAt, if_pos hdirectory, Glob.select, if_pos hdirectory, hlisted, hsorted]
  simp [hfiles]

theorem run_yields_each_once_twoFiles :
    (∀ c ∈ [direct, detour].flatMap (candidatesAt twoFiles),
      twoFiles.resolve c ∈ (candidates twoFiles { paths := [] }).map twoFiles.resolve) ∧
      files twoFiles { paths := [.here, direct, detour] } = files twoFiles { paths := [] } := by
  have hplaces : ∀ c ∈ [direct, detour].flatMap (candidatesAt twoFiles),
      twoFiles.resolve c ∈ (candidates twoFiles { paths := [] }).map twoFiles.resolve := by
    rw [candidates_twoFiles]
    decide +kernel
  obtain ⟨-, -, -, happend, hfiles⟩ := run_yields_each_once (survey twoFiles { paths := [] }) []
  refine ⟨hplaces, ?_⟩
  rw [hfiles, hfiles]
  exact happend [direct, detour] hplaces

/-- Where no path is given, one that leads nowhere new takes the place of the directory at hand, and
files are lost. -/
theorem default_directory_replaced :
    (∀ c ∈ [direct].flatMap (candidatesAt twoFiles),
      twoFiles.resolve c ∈ (candidates twoFiles { paths := [] }).map twoFiles.resolve) ∧
      files twoFiles { paths := [] } = [direct, { names := ["B.java"] }] ∧
      files twoFiles { paths := [] ++ [direct] } = [direct] := by
  rw [files, found, candidates_twoFiles]
  decide +kernel

end Selection

end ShapeLint.Files
