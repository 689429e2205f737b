import Mathlib.Data.List.Basic
import Mathlib.Tactic.Common

/-!
# Lines of a text that arrives in pieces

What has arrived is kept in a buffer from which complete lines are taken (`cutLines`); each line is
handed to a step that may stop the reading (`foldUntil`). `feed` is what one piece does, and
`feed_flatten` says that the pieces together do what the whole text does at once.
-/

namespace MeetilyLocal

namespace LineBuffer

variable {σ α ε : Type*}

/-! ## Stopping early -/

/-- Fold a list from the left until a step stops. -/
def foldUntil (f : σ → α → σ × Option ε) (state : σ) : List α → σ × Option ε
  | [] => (state, none)
  | a :: as =>
    match f state a with
    | (state, none) => foldUntil f state as
    | (state, some stop) => (state, some stop)

@[simp]
theorem foldUntil_nil (f : σ → α → σ × Option ε) (state : σ) :
    foldUntil f state [] = (state, none) := rfl

theorem foldUntil_cons_of_none {f : σ → α → σ × Option ε} {state state' : σ} {a : α}
    (h : f state a = (state', none)) (as : List α) :
    foldUntil f state (a :: as) = foldUntil f state' as := by
  rw [foldUntil, h]

theorem foldUntil_cons_of_some {f : σ → α → σ × Option ε} {state state' : σ} {a : α} {stop : ε}
    (h : f state a = (state', some stop)) (as : List α) :
    foldUntil f state (a :: as) = (state', some stop) := by
  rw [foldUntil, h]

/-- A list in two parts: the second matters if the first does not stop. -/
theorem foldUntil_append_of_none {f : σ → α → σ × Option ε} {state state' : σ} {as : List α}
    (h : foldUntil f state as = (state', none)) (bs : List α) :
    foldUntil f state (as ++ bs) = foldUntil f state' bs := by
  induction as generalizing state with
  | nil =>
    cases h
    rfl
  | cons a as ih =>
    rcases hstep : f state a with ⟨next, _ | stop⟩
    · rw [foldUntil_cons_of_none hstep] at h
      rw [List.cons_append, foldUntil_cons_of_none hstep, ih h]
    · rw [foldUntil_cons_of_some hstep] at h
      cases h

theorem foldUntil_append_of_some {f : σ → α → σ × Option ε} {state state' : σ} {as : List α}
    {stop : ε} (h : foldUntil f state as = (state', some stop)) (bs : List α) :
    foldUntil f state (as ++ bs) = (state', some stop) := by
  induction as generalizing state with
  | nil => cases h
  | cons a as ih =>
    rcases hstep : f state a with ⟨next, _ | stop'⟩
    · rw [foldUntil_cons_of_none hstep] at h
      rw [List.cons_append, foldUntil_cons_of_none hstep, ih h]
    · rw [foldUntil_cons_of_some hstep] at h
      rw [List.cons_append, foldUntil_cons_of_some hstep, h]

theorem foldUntil_map {β : Type*} (f : σ → β → σ × Option ε) (g : α → β) (state : σ)
    (as : List α) : foldUntil f state (as.map g) = foldUntil (fun s a => f s (g a)) state as := by
  induction as generalizing state with
  | nil => rfl
  | cons a as ih =>
    rw [List.map_cons, foldUntil, foldUntil]
    simp only [ih]

/-- What each step keeps is kept. -/
theorem foldUntil_invariant {f : σ → α → σ × Option ε} {P : σ → Prop}
    (hstep : ∀ state a, P state → P (f state a).1) {state : σ} (h : P state) (as : List α) :
    P (foldUntil f state as).1 := by
  induction as generalizing state with
  | nil => exact h
  | cons a as ih =>
    rcases hf : f state a with ⟨state', stop⟩
    have hnext : P state' := by simpa [hf] using hstep state a h
    rcases stop with _ | stop
    · rw [foldUntil_cons_of_none hf]
      exact ih hnext
    · rw [foldUntil_cons_of_some hf]
      exact hnext

/-! ## Complete lines -/

/-- The complete lines of a text, without what ends them, and what is left of it. -/
def cutLines : List Char → List (List Char) × List Char
  | [] => ([], [])
  | c :: cs =>
    if c = '\n' then ([] :: (cutLines cs).1, (cutLines cs).2)
    else
      match cutLines cs with
      | ([], rest) => ([], c :: rest)
      | (line :: lines, rest) => ((c :: line) :: lines, rest)

/-- Taking the first line as long as there is one. -/
theorem cutLines_eq (text : List Char) :
    cutLines text =
      match text.dropWhile (· ≠ '\n') with
      | [] => ([], text)
      | _ :: rest => (text.takeWhile (· ≠ '\n') :: (cutLines rest).1, (cutLines rest).2) := by
  induction text with
  | nil => rfl
  | cons c cs ih =>
    rw [cutLines]
    split_ifs with hc
    · simp [hc]
    · have hpos : decide (c ≠ '\n') = true := decide_eq_true hc
      rw [ih, List.dropWhile_cons_of_pos (p := fun c => decide (c ≠ '\n')) hpos,
        List.takeWhile_cons_of_pos (p := fun c => decide (c ≠ '\n')) hpos]
      cases cs.dropWhile (· ≠ '\n') <;> rfl

/-- **Cutting a text in two parts**: what the first part leaves goes in front of the second. -/
theorem cutLines_append (text text' : List Char) :
    cutLines (text ++ text') = ((cutLines text).1 ++ (cutLines ((cutLines text).2 ++ text')).1,
      (cutLines ((cutLines text).2 ++ text')).2) := by
  induction text with
  | nil => rfl
  | cons c cs ih =>
    rw [List.cons_append, cutLines, cutLines]
    split_ifs with hc
    · rw [ih, List.cons_append]
    · rw [ih]
      rcases cutLines cs with ⟨_ | ⟨line, lines⟩, rest⟩
      · simp [cutLines, hc]
      · simp

/-- No complete line is left. -/
theorem cutLines_rest (text : List Char) :
    cutLines (cutLines text).2 = ([], (cutLines text).2) := by
  have h := cutLines_append text []
  rw [List.append_nil, List.append_nil] at h
  obtain ⟨hlines, hrest⟩ := Prod.ext_iff.mp h
  exact Prod.ext (List.append_right_eq_self.mp hlines.symm) hrest.symm

/-! ## Pieces of a text -/

/-- What a piece of text does: the lines that it completes are folded and the rest is kept. -/
def feed (f : σ → List Char → σ × Option ε) (state : σ × List Char) (piece : List Char) :
    (σ × List Char) × Option ε :=
  let cut := cutLines (state.2 ++ piece)
  let folded := foldUntil f state.1 cut.1
  ((folded.1, cut.2), folded.2)

/-- **Reading in pieces** does what reading the whole text does. -/
theorem feed_flatten {f : σ → List Char → σ × Option ε} (state : σ) {buffer : List Char}
    (hbuffer : cutLines buffer = ([], buffer)) (pieces : List (List Char)) :
    ((foldUntil (feed f) (state, buffer) pieces).1.1,
        (foldUntil (feed f) (state, buffer) pieces).2) =
      foldUntil f state (cutLines (buffer ++ pieces.flatten)).1 := by
  induction pieces generalizing state buffer with
  | nil => simp [hbuffer]
  | cons piece pieces ih =>
    rw [List.flatten_cons, ← List.append_assoc, cutLines_append (buffer ++ piece)]
    rcases hfold : foldUntil f state (cutLines (buffer ++ piece)).1 with ⟨state', _ | stop⟩
    · have hfeed : feed f (state, buffer) piece =
          ((state', (cutLines (buffer ++ piece)).2), none) := by rw [feed, hfold]
      rw [foldUntil_cons_of_none hfeed, foldUntil_append_of_none hfold]
      exact ih state' (cutLines_rest _)
    · have hfeed : feed f (state, buffer) piece =
          ((state', (cutLines (buffer ++ piece)).2), some stop) := by rw [feed, hfold]
      rw [foldUntil_cons_of_some hfeed, foldUntil_append_of_some hfold]

end LineBuffer

end MeetilyLocal
