import LoxLexer.CommandLine.Input
import Mathlib

namespace LoxLexer

/-- A text with its lines, which leave out the newlines.  The last line may lack its newline, but
then it is not empty. -/
inductive Lines {α : Type} (newline : α) : List α → List (List α) → Prop
  | done : Lines newline [] []
  | last {line} : line ≠ [] → newline ∉ line → Lines newline line [line]
  | step {line text lines} : newline ∉ line → Lines newline text lines →
      Lines newline (line ++ newline :: text) (line :: lines)

namespace Lines

variable {α β : Type} {newline : α} {line text rest : List α} {lines more : List (List α)}

theorem not_mem (h : Lines newline text lines) (hline : line ∈ lines) : newline ∉ line := by
  induction h with
  | done => cases hline
  | last _ hnone =>
    obtain rfl := List.mem_singleton.1 hline
    exact hnone
  | step hnone _ ih =>
    rcases List.mem_cons.1 hline with rfl | hline
    · exact hnone
    · exact ih hline

theorem append (h : Lines newline text lines) (hend : text = [] ∨ text.getLast? = some newline)
    (hrest : Lines newline rest more) : Lines newline (text ++ rest) (lines ++ more) := by
  induction h with
  | done => exact hrest
  | last hne hnone =>
    rcases hend with hnil | hlast
    · exact absurd hnil hne
    · exact absurd (List.mem_of_getLast? hlast) hnone
  | @step line text lines hnone htext ih =>
    rw [List.append_assoc, List.cons_append, List.cons_append]
    refine .step hnone (ih ?_)
    cases text with
    | nil => exact .inl rfl
    | cons c text => exact .inr (by simpa using hend)

theorem map {mark : β} (f : α → β) (hf : ∀ a, f a = mark ↔ a = newline)
    (h : Lines newline text lines) : Lines mark (text.map f) (lines.map (List.map f)) := by
  have hmark : ∀ {line : List α}, newline ∉ line → mark ∉ line.map f := by
    intro line hnone hmem
    obtain ⟨a, ha, hsame⟩ := List.mem_map.1 hmem
    exact hnone ((hf a).1 hsame ▸ ha)
  induction h with
  | done => exact .done
  | last hne hnone => exact .last (by simpa using hne) (hmark hnone)
  | step hnone _ ih =>
    rw [List.map_append, List.map_cons, (hf newline).2 rfl, List.map_cons]
    exact .step (hmark hnone) ih

end Lines

namespace CommandLine

open Text

variable {α : Type} [BEq α] [LawfulBEq α] {newline : α} {line text : List α}
  {lines : List (List α)}

theorem splitOn_of_not_mem (h : newline ∉ line) : line.splitOn newline = [line] :=
  List.splitOnP_eq_singleton fun _ ha => beq_eq_false_iff_ne.2 fun hsame => h (hsame ▸ ha)

theorem splitOn_append_cons (h : newline ∉ line) (rest : List α) :
    (line ++ newline :: rest).splitOn newline = line :: rest.splitOn newline := by
  have hsplit : (line ++ newline :: rest).splitOn newline =
      line.splitOn newline ++ rest.splitOn newline :=
    List.splitOnP_append_cons (p := (· == newline)) line rest (beq_self_eq_true newline)
  rw [hsplit, splitOn_of_not_mem h, List.singleton_append]

theorem splitLines_of_not_mem (h : newline ∉ line) (hne : line ≠ []) :
    splitLines newline line = [line] := by
  simp [splitLines, splitOn_of_not_mem h, hne]

theorem splitLines_append_cons (h : newline ∉ line) (rest : List α) :
    splitLines newline (line ++ newline :: rest) = line :: splitLines newline rest := by
  have hne := List.splitOn_ne_nil newline rest
  simp only [splitLines, splitOn_append_cons h, List.getLast?_cons_of_ne_nil hne,
    List.dropLast_cons_of_ne_nil hne]
  split <;> rfl

theorem lines_splitLines (newline : α) (text : List α) :
    Lines newline text (splitLines newline text) := by
  induction hlength : text.length using Nat.strongRecOn generalizing text with
  | ind n ih =>
    by_cases hmem : newline ∈ text
    · obtain ⟨line, rest, rfl, hnone⟩ := List.eq_append_cons_of_mem hmem
      have hshorter : rest.length < n := by
        rw [← hlength, List.length_append, List.length_cons]
        omega
      rw [splitLines_append_cons hnone]
      exact .step hnone (ih _ hshorter rest rfl)
    · by_cases hne : text = []
      · subst hne
        exact .done
      · rw [splitLines_of_not_mem hmem hne]
        exact .last hne hmem

theorem eq_splitLines (h : Lines newline text lines) : lines = splitLines newline text := by
  induction h with
  | done => rfl
  | last hne hnone => rw [splitLines_of_not_mem hnone hne]
  | step hnone _ ih => rw [splitLines_append_cons hnone, ← ih]

theorem ofByte_eq_newline_iff (b : UInt8) : ofByte b = '\n' ↔ b = 10 := by
  constructor
  · intro h
    have hvalid : b.toNat.isValidChar := .inl (Nat.lt_of_lt_of_le b.toNat_lt (by decide))
    have hnumber := congrArg Char.toNat h
    rw [ofByte, Char.toNat_ofNat, if_pos hvalid] at hnumber
    exact UInt8.toNat_inj.1 hnumber
  · rintro rfl
    rfl

namespace Input

def content : Input → List Char
  | .bytes data => ofBytes data
  | .text value => value

theorem lines_content (input : Input) : Lines '\n' input.content input.lines := by
  cases input with
  | bytes data => exact (lines_splitLines 10 data).map ofByte ofByte_eq_newline_iff
  | text value => exact lines_splitLines '\n' value

theorem eq_lines {input : Input} {lines : List (List Char)} (h : Lines '\n' input.content lines) :
    lines = input.lines :=
  (eq_splitLines h).trans (eq_splitLines input.lines_content).symm

end Input

end CommandLine

end LoxLexer
