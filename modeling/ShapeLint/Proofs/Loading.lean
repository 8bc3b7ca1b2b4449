import Mathlib.Data.List.Forall2
import ShapeLint.Files.Selection
import ShapeLint.Proofs.Parsing
import ShapeLint.Proofs.Workers

/-!
# Loading scripts

Files are loaded one after another, each as a script or as the error in its place, up to the first
that breaks off loading: no further file is loaded, and of the items found so far those that were
asked for ahead are dropped. `Loading` follows the files up to there.
-/

namespace ShapeLint

open Files Files.Selection

/-! ## Drawing items -/

/-- The items that are found one after another, up to where loading breaks off, and why it does if
it does. What comes behind is never asked for. -/
def yielded : List Draw → List Item × Option Java.ParseFailure
  | [] => ([], none)
  | .entry _ :: draws => yielded draws
  | .item i :: draws => (i :: (yielded draws).1, (yielded draws).2)
  | .broken failure :: _ => ([], some failure)

/-- The item that a file is loaded as: the error in its place if it cannot be read or its source is
rejected, or a script with its tree and its text. -/
inductive Loads (fs : FileSystem) (p : Path) : Item → Prop where
  | unread {e : FileError} : fs.read p = .error e → Loads fs p (.failed p.text (readFault p e))
  | rejected {bytes : List UInt8} {fault : Fault} :
      fs.read p = .ok bytes → Java.Source.Rejected ⟨bytes⟩ p.text fault →
      Loads fs p (.failed p.text fault)
  | script {bytes : List UInt8} {root : Node} :
      fs.read p = .ok bytes → Java.Source.Valued ⟨bytes⟩ → Java.parse p.text ⟨bytes⟩ = .ok root →
      Loads fs p (.script { path := p.text, root? := some root, text := Java.Source.text ⟨bytes⟩ })

/-- A file breaks off loading: it can be read, but the first of its literals without a value is a
numeral. -/
def BreaksAt (fs : FileSystem) (p : Path) (reason : Literal.NumeralError) : Prop :=
  ∃ bytes, fs.read p = .ok bytes ∧ Java.Source.Breaks ⟨bytes⟩ reason

/-- Files are loaded in order, each as one item, up to the first that breaks off loading. Those
after it are not looked at. -/
inductive Loading (fs : FileSystem) :
    List Path → List Item → Option Literal.NumeralError → Prop where
  | done : Loading fs [] [] none
  | next {p : Path} {ps : List Path} {i : Item} {is : List Item}
      {reason? : Option Literal.NumeralError} :
      Loads fs p i → Loading fs ps is reason? → Loading fs (p :: ps) (i :: is) reason?
  | broken {p : Path} {ps : List Path} {reason : Literal.NumeralError} :
      BreaksAt fs p reason → Loading fs (p :: ps) [] (some reason)

section

variable {fs : FileSystem}

/-- What is found among further draws comes behind what is found among the first, unless these break
off. -/
lemma yielded_append (ds es : List Draw) :
    yielded (ds ++ es) =
      match yielded ds with
      | (items, none) => (items ++ (yielded es).1, (yielded es).2)
      | broken => broken := by
  induction ds with
  | nil => rfl
  | cons d ds ih =>
    cases d with
    | entry e => exact ih
    | broken failure => rfl
    | item i =>
      rw [List.cons_append, yielded, ih, yielded]
      obtain ⟨items, _ | failure⟩ := yielded ds <;> rfl

/-- Asking for a file gives one item, or breaks off loading. -/
lemma yielded_draw (p : Path) :
    (∃ i, yielded (draw fs p) = ([i], none) ∧ Loads fs p i) ∨
      ∃ reason, yielded (draw fs p) = ([], some (.badNumeral reason)) ∧ BreaksAt fs p reason := by
  unfold draw
  cases hread : fs.read p with
  | error e => exact .inl ⟨_, rfl, .unread hread⟩
  | ok bytes =>
    dsimp only
    unfold Script.draws Script.parse
    obtain ⟨root, hparse, hvalued⟩ | ⟨fault, hparse, hrejected⟩ | ⟨reason, hparse, hbreaks⟩ :=
      Java.parse_cases p.text ⟨bytes⟩
    · rw [hparse]
      exact .inl ⟨_, rfl, .script hread hvalued hparse⟩
    · rw [hparse]
      exact .inl ⟨_, rfl, .rejected hread hrejected⟩
    · rw [hparse]
      exact .inr ⟨reason, rfl, bytes, hread, hbreaks⟩

/-- A file that breaks off loading is loaded neither as a script nor as an error. -/
lemma BreaksAt.not_loads {p : Path} {reason : Literal.NumeralError}
    (h : BreaksAt fs p reason) {i : Item} :
    ¬Loads fs p i := by
  obtain ⟨bytes, hread, hbreaks⟩ := h
  intro hloads
  cases hloads with
  | unread herror => simp [hread] at herror
  | rejected hother hrejected =>
    cases hread.symm.trans hother
    exact hbreaks.not_rejected hrejected
  | script hother hvalued _ =>
    cases hread.symm.trans hother
    exact hbreaks.not_valued hvalued

/-- Files are loaded in order up to the first that breaks off loading, by induction on the files. -/
lemma loading_yielded (ps : List Path) :
    ∃ items reason?, Loading fs ps items reason? ∧
      yielded (ps.flatMap (draw fs)) = (items, reason?.map Java.ParseFailure.badNumeral) := by
  induction ps with
  | nil => exact ⟨[], none, .done, rfl⟩
  | cons p ps ih =>
    obtain ⟨items, reason?, hloading, hyielded⟩ := ih
    rw [List.flatMap_cons, yielded_append, hyielded]
    obtain ⟨i, hdraw, hloads⟩ | ⟨reason, hdraw, hbreaks⟩ := @yielded_draw fs p
    · rw [hdraw]
      exact ⟨i :: items, reason?, .next hloads hloading, rfl⟩
    · rw [hdraw]
      exact ⟨[], some reason, .broken hbreaks, rfl⟩

/-- Every file is loaded, each as one item, exactly if none breaks off loading. -/
lemma Loading.forall₂_iff {ps : List Path} {items : List Item}
    {reason? : Option Literal.NumeralError} (h : Loading fs ps items reason?) :
    List.Forall₂ (Loads fs) ps items ↔ ∀ p ∈ ps, ∀ reason, ¬BreaksAt fs p reason := by
  induction h with
  | done => simp
  | next hloads _ ih =>
    rw [List.forall₂_cons, ih, List.forall_mem_cons]
    exact and_congr_left' ⟨fun _ _ hbreaks => hbreaks.not_loads hloads, fun _ => hloads⟩
  | broken hbreaks =>
    refine iff_of_false ?_ fun hunbroken => hunbroken _ (List.mem_cons_self ..) _ hbreaks
    exact fun h => nomatch h

/-- Loading comes to its end exactly if no file breaks it off. -/
lemma Loading.reason?_eq_none_iff {ps : List Path} {items : List Item}
    {reason? : Option Literal.NumeralError} (h : Loading fs ps items reason?) :
    reason? = none ↔ ∀ p ∈ ps, ∀ reason, ¬BreaksAt fs p reason := by
  induction h with
  | done => simp
  | next hloads _ ih =>
    rw [ih, List.forall_mem_cons]
    exact (and_iff_right fun _ hbreaks => hbreaks.not_loads hloads).symm
  | broken hbreaks =>
    exact iff_of_false nofun fun hunbroken => hunbroken _ (List.mem_cons_self ..) _ hbreaks

/-- Files that are left out make no difference to what is loaded. -/
lemma yielded_draws (s : Selection) :
    yielded (s.draws fs) = yielded ((s.files fs).flatMap (draw fs)) := by
  unfold draws files
  induction s.found fs with
  | nil => rfl
  | cons p ps ih =>
    rw [List.flatMap_cons, List.filter_cons]
    cases s.isExcluded fs p with
    | true => exact ih
    | false =>
      rw [if_neg Bool.false_ne_true, Bool.not_false, if_pos rfl, List.flatMap_cons, yielded_append,
        yielded_append, ih]

end

/-! ## Analysing what is loaded -/

namespace Analysis

/-- The items among those that were loaded whose results are given: all, unless loading breaks off,
in which case those that are asked for ahead are dropped. -/
def given (a : Analysis) (items : List Item) : Option Java.ParseFailure → List Item
  | none => items
  | some _ => items.take (items.length + 1 - a.window)

/-- If enough items are waiting, the first of them is given, whether or not loading breaks off
later. -/
lemma given_cons {a : Analysis} {items : List Item} (h : a.window ≤ items.length + 1) (first : Item)
    (failure? : Option Java.ParseFailure) :
    a.given (first :: items) failure? = first :: a.given items failure? := by
  cases failure? with
  | none => rfl
  | some failure =>
    have hlength : (first :: items).length + 1 - a.window = items.length + 1 - a.window + 1 := by
      rw [List.length_cons]
      omega
    rw [given, hlength, List.take_succ_cons]
    rfl

/-- The results are those of the items up to where loading breaks off, in order. The items that wait
were found before, and are fewer than the window. -/
lemma results_steps_yielded {a : Analysis} {waiting : List Item} (draws : List Draw)
    (h : waiting.length < a.window) :
    results (a.steps waiting draws) =
      (a.given (waiting ++ (yielded draws).1) (yielded draws).2).map (ofItem a.rules) := by
  fun_induction steps a waiting draws with
  | case1 waiting => simp [results, yielded, given, List.filterMap_map]
  | case2 waiting e draws ih => exact ih h
  | case3 waiting failure draws =>
    -- All items that wait at this time are dropped, as no result is taken any more.
    have hnone : waiting.length + 1 - a.window = 0 := by omega
    simp [results, yielded, given, hnone]
  | case4 waiting i draws hsplit => simp at hsplit
  | case5 waiting i draws first others hsplit hwindow ih =>
    have hothers : others.length = waiting.length := by
      simpa using (congrArg List.length hsplit).symm
    have hitems :
        waiting ++ (yielded (.item i :: draws)).1 = first :: (others ++ (yielded draws).1) := by
      rw [← List.cons_append, ← hsplit, List.append_assoc]
      rfl
    have hroom : a.window ≤ (others ++ (yielded draws).1).length + 1 := by
      rw [List.length_append]
      omega
    rw [hitems, given_cons hroom, List.map_cons]
    exact congrArg _ (ih (hothers ▸ h))
  | case6 waiting i draws first others hsplit hwindow ih =>
    have hitems :
        waiting ++ (yielded (.item i :: draws)).1 = first :: others ++ (yielded draws).1 := by
      rw [← hsplit, List.append_assoc]
      rfl
    rw [hitems]
    exact ih (Nat.lt_of_not_le hwindow)

/-- A run breaks off exactly if loading does. -/
lemma broken_mem_steps_iff {a : Analysis} {waiting : List Item} {draws : List Draw}
    {failure : Java.ParseFailure} :
    Step.broken failure ∈ a.steps waiting draws ↔ (yielded draws).2 = some failure := by
  fun_induction steps a waiting draws with
  | case1 waiting => simp [yielded]
  | case2 waiting e draws ih => simpa [yielded] using ih
  | case3 waiting found draws => simp [yielded, eq_comm]
  | case4 waiting i draws h => simp at h
  | case5 waiting i draws first others h hwindow ih
  | case6 waiting i draws first others h hwindow ih =>
    simpa [yielded] using ih

end Analysis

/-! ## A bad script disables only itself, unless it breaks off loading -/

open Analysis (results ofItem)

/-- A source is turned into a tree or rejected exactly if it does not break off loading. Of files
that are loaded one after another, each becomes one item in its place exactly if none breaks off
loading; else those from the first such file on are missing. The items of a selection are all
analysed exactly if no selected file breaks off loading; else the run breaks off, and the items that
were asked for ahead are dropped, too. -/
theorem loaded_alone_iff_unbroken (a : Analysis) (fs : FileSystem) (s : Selection)
    (ps : List Path) :
    (∀ path source,
        ((∃ root, Java.parse path source = .ok root) ∨
          ∃ fault, Java.parse path source = .error (.rejected fault)) ↔
          ∀ reason, ¬source.Breaks reason) ∧
      (∃ items reason?, Loading fs ps items reason? ∧
        yielded (ps.flatMap (draw fs)) = (items, reason?.map Java.ParseFailure.badNumeral) ∧
        (List.Forall₂ (Loads fs) ps items ↔ ∀ p ∈ ps, ∀ reason, ¬BreaksAt fs p reason)) ∧
      ∃ items reason?, Loading fs (s.files fs) items reason? ∧
        results (a.steps [] (s.draws fs)) =
          (a.given items (reason?.map Java.ParseFailure.badNumeral)).map (ofItem a.rules) ∧
        (∀ failure, .broken failure ∈ a.steps [] (s.draws fs) ↔
          reason?.map Java.ParseFailure.badNumeral = some failure) ∧
        (reason? = none ↔ ∀ p ∈ s.files fs, ∀ reason, ¬BreaksAt fs p reason) := by
  refine ⟨Java.parse_settled_iff, ?_, ?_⟩
  · obtain ⟨items, reason?, hloading, hyielded⟩ := @loading_yielded fs ps
    exact ⟨items, reason?, hloading, hyielded, hloading.forall₂_iff⟩
  · obtain ⟨items, reason?, hloading, hyielded⟩ := @loading_yielded fs (s.files fs)
    have hdraws : yielded (s.draws fs) = (items, reason?.map Java.ParseFailure.badNumeral) :=
      (yielded_draws s).trans hyielded
    refine ⟨items, reason?, hloading, ?_, fun failure => ?_, hloading.reason?_eq_none_iff⟩
    · -- Nothing waits at the start, so the window has room.
      have hroom : ([] : List Item).length < a.window := Pool.window_pos a
      rw [Analysis.results_steps_yielded _ hroom, hdraws]
      rfl
    · rw [Analysis.broken_mem_steps_iff, hdraws]

/-- The source `0x1p1024;`, whose numeral is too large. -/
def largeNumeral : Java.Source :=
  ⟨[48, 120, 49, 112, 49, 48, 50, 52, 59]⟩

/-- The source `f();`. -/
def plainCall : Java.Source :=
  ⟨[102, 40, 41, 59]⟩

/-- A directory with both sources, the bad one first. -/
def largeFirst : FileSystem :=
  { tree := .directory [("A.java", .file largeNumeral.bytes), ("B.java", .file plainCall.bytes)],
    here := { root := "/" } }

/-- The files of that directory. -/
def largeFirstFiles : List Path :=
  [{ names := ["A.java"] }, { names := ["B.java"] }]

/-- A numeral that is too large, in a source that the grammar accepts, keeps the next file from
being loaded and analysed. -/
theorem loading_broken_off_by_large_numeral :
    largeNumeral.tree.hasError = false ∧ (Java.parse "B.java" plainCall).isOk = true ∧
      files largeFirst { paths := largeFirstFiles } = largeFirstFiles ∧
      (yielded (draws largeFirst { paths := largeFirstFiles })).1 = [] ∧
      (yielded (draws largeFirst { paths := largeFirstFiles })).2.isSome = true ∧
      ∀ a : Analysis,
        results (a.steps [] (draws largeFirst { paths := largeFirstFiles })) = [] := by
  have hfiles : files largeFirst { paths := largeFirstFiles } = largeFirstFiles := by decide +kernel
  have hempty : (yielded (draws largeFirst { paths := largeFirstFiles })).1.isEmpty = true := by
    decide +kernel
  have hitems := List.isEmpty_iff.1 hempty
  have hbroken : (yielded (draws largeFirst { paths := largeFirstFiles })).2.isSome = true := by
    decide +kernel
  refine ⟨by decide +kernel, by decide +kernel, hfiles, hitems, hbroken, fun a => ?_⟩
  have hroom : ([] : List Item).length < a.window := Pool.window_pos a
  obtain ⟨failure, hfailure⟩ := Option.isSome_iff_exists.1 hbroken
  rw [Analysis.results_steps_yielded _ hroom, hitems, hfailure]
  simp [Analysis.given]

end ShapeLint
