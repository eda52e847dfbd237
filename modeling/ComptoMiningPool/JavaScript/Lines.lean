import Mathlib.Tactic

/-
This file proves how a text that is split at a separator goes on when more text arrives.
-/

namespace JavaScript.Lines

variable {α : Type} [DecidableEq α]

/-- The pieces that a separator ends. -/
def complete (separator : α) (text : List α) : List (List α) := (text.splitOn separator).dropLast

/-- The last piece, which no separator has ended yet. -/
def remainder (separator : α) (text : List α) : List α := (text.splitOn separator).getLastD []

/-- The text through its last separator. -/
def upToLast (separator : α) : List α → List α
  | [] => []
  | element :: text =>
      if separator ∈ element :: text then element :: upToLast separator text else []

/-- A text has no separator, or its last separator cuts it in two. -/
inductive Cut (separator : α) : List α → Prop where
  | plain {text} (absent : separator ∉ text) : Cut separator text
  | last (before after) (absent : separator ∉ after) : Cut separator (before ++ separator :: after)

theorem cut (separator : α) (text : List α) : Cut separator text := by
  induction text with
  | nil => exact .plain List.not_mem_nil
  | cons element text ih =>
      cases ih with
      | last before after absent => exact .last (element :: before) after absent
      | plain absent =>
          by_cases same : separator = element
          · subst same
            exact .last [] text absent
          · apply Cut.plain
            rw [List.mem_cons, not_or]
            exact ⟨same, absent⟩

section Pieces

variable {separator : α} {text before after : List α}

theorem complete_of_not_mem (absent : separator ∉ text) : complete separator text = [] := by
  rw [complete, List.splitOn_eq_singleton absent]
  rfl

theorem remainder_of_not_mem (absent : separator ∉ text) : remainder separator text = text := by
  rw [remainder, List.splitOn_eq_singleton absent]
  rfl

theorem splitOn_last (before : List α) (absent : separator ∉ after) :
    (before ++ separator :: after).splitOn separator = before.splitOn separator ++ [after] := by
  rw [List.splitOn_append_cons_self, List.splitOn_eq_singleton absent]

theorem complete_last (before : List α) (absent : separator ∉ after) :
    complete separator (before ++ separator :: after) = before.splitOn separator := by
  rw [complete, splitOn_last before absent, List.dropLast_concat]

theorem remainder_last (before : List α) (absent : separator ∉ after) :
    remainder separator (before ++ separator :: after) = after := by
  rw [remainder, splitOn_last before absent, List.getLastD_concat]

theorem not_mem_remainder (separator : α) (text : List α) : separator ∉ remainder separator text := by
  cases cut separator text with
  | plain absent =>
      rw [remainder_of_not_mem absent]
      exact absent
  | last before after absent =>
      rw [remainder_last before absent]
      exact absent

/-- Later text continues the remainder, and the complete pieces stay. -/
theorem complete_append (before after : List α) :
    complete separator (before ++ after) =
      complete separator before ++ complete separator (remainder separator before ++ after) := by
  cases cut separator before with
  | plain absent => rw [complete_of_not_mem absent, remainder_of_not_mem absent, List.nil_append]
  | last first second absent =>
      rw [complete_last first absent, remainder_last first absent, complete, complete,
        List.append_assoc, List.cons_append, List.splitOn_append_cons_self,
        List.dropLast_append_of_ne_nil (List.splitOn_ne_nil _ _)]

theorem upToLast_of_not_mem (absent : separator ∉ text) : upToLast separator text = [] := by
  cases text with
  | nil => rfl
  | cons element text => rw [upToLast, if_neg absent]

theorem upToLast_append_of_not_mem (before : List α) (absent : separator ∉ after) :
    upToLast separator (before ++ after) = upToLast separator before := by
  induction before with
  | nil => exact upToLast_of_not_mem absent
  | cons element before ih =>
      have same : separator ∈ element :: (before ++ after) ↔ separator ∈ element :: before := by
        simp [absent]
      rw [List.cons_append, upToLast, upToLast, ih]
      simp only [same]

theorem upToLast_append_of_mem (before : List α) (present : separator ∈ after) :
    upToLast separator (before ++ after) = before ++ upToLast separator after := by
  induction before with
  | nil => rfl
  | cons element before ih =>
      rw [List.cons_append, upToLast, if_pos (by simp [present]), ih, List.cons_append]

theorem upToLast_last (before : List α) (absent : separator ∉ after) :
    upToLast separator (before ++ separator :: after) = before ++ [separator] := by
  rw [upToLast_append_of_mem before List.mem_cons_self, upToLast, if_pos List.mem_cons_self,
    upToLast_of_not_mem absent]

/-- The complete pieces depend only on the text through its last separator. -/
theorem complete_upToLast (separator : α) (text : List α) :
    complete separator (upToLast separator text) = complete separator text := by
  cases cut separator text with
  | plain absent => rw [upToLast_of_not_mem absent, complete_of_not_mem absent,
      complete_of_not_mem List.not_mem_nil]
  | last before after absent =>
      rw [upToLast_last before absent, complete_last before absent,
        complete_last before List.not_mem_nil]

/-- A split loses its separators only. -/
theorem length_splitOn (separator : α) (text : List α) :
    text.length = ((text.splitOn separator).map List.length).sum + text.count separator := by
  induction text with
  | nil => rfl
  | cons element text ih =>
      rw [List.splitOn_cons_eq_if_modifyHead, List.length_cons, ih, List.count_cons]
      split
      · simp [Nat.add_assoc]
      · obtain ⟨piece, pieces, split⟩ :=
          List.exists_cons_of_ne_nil (List.splitOn_ne_nil separator text)
        rw [split, List.modifyHead_cons]
        simp only [List.map_cons, List.sum_cons, List.length_cons]
        omega

/-- The text through its last separator is as long as the complete pieces and all separators. -/
theorem length_upToLast (separator : α) (text : List α) :
    (upToLast separator text).length =
      ((complete separator text).map List.length).sum + text.count separator := by
  cases cut separator text with
  | plain absent =>
      rw [upToLast_of_not_mem absent, complete_of_not_mem absent, List.count_eq_zero_of_not_mem absent]
      rfl
  | last before after absent =>
      have whole := length_splitOn separator before
      rw [upToLast_last before absent, complete_last before absent, List.count_append,
        List.count_cons_self, List.count_eq_zero_of_not_mem absent, List.length_append,
        List.length_singleton]
      omega

end Pieces

/-- Texts with equal nonempty pieces and equally many separators are equally long through their last
separators. -/
theorem length_upToLast_eq {separator : α} {first second : List α}
    (pieces : (complete separator first).filter (· ≠ []) = (complete separator second).filter (· ≠ []))
    (separators : first.count separator = second.count separator) :
    (upToLast separator first).length = (upToLast separator second).length := by
  have lengths : ∀ pieces : List (List α),
      (pieces.map List.length).sum = ((pieces.filter (· ≠ [])).map List.length).sum := by
    intro pieces
    induction pieces with
    | nil => rfl
    | cons piece pieces ih =>
        cases piece with
        | nil => simpa using ih
        | cons element piece => simp [ih]
  rw [length_upToLast, length_upToLast, separators, lengths, pieces, ← lengths]

end JavaScript.Lines
