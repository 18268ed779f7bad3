import Mathlib.Data.List.TakeWhile
import Mathlib.Data.List.OfFn
import Mathlib.Data.Option.Basic
import Mathlib.Tactic.Common

/-!
# Terminated strings in fixed fields

A C string is what stands in an array before the first terminator.  `strcpy` puts the text and a
terminator into a field and leaves the rest of the field as it was; it does not know how large
the field is, and `none` is a write past its end.  Whatever the rest of the field holds, the
text reads back (`cString_of_strcpy`).
-/

section

variable {α : Type*} [DecidableEq α] {nul : α} {n : ℕ}

/-- The text of a C string; `none` when there is no terminator. -/
def cString (nul : α) (cells : List α) : Option (List α) :=
  if nul ∈ cells then some (cells.takeWhile (· ≠ nul)) else none

/-- The text of `src` and a terminator, copied to the start of a field. -/
def strcpy (nul : α) (dst : Vector α n) (src : List α) : Option (Vector α n) :=
  let text := src.takeWhile (· ≠ nul)
  if text.length < n then
    some (Vector.ofFn fun i => (text ++ [nul])[i.val]?.getD dst[i])
  else none

theorem takeWhile_ne_of_notMem {text : List α} (h : nul ∉ text) :
    text.takeWhile (· ≠ nul) = text := by
  refine List.takeWhile_eq_self_iff.mpr fun c hc => decide_eq_true ?_
  rintro rfl
  exact h hc

/-- What stands behind the first terminator is not read. -/
theorem cString_append_cons {text : List α} (h : nul ∉ text) (rest : List α) :
    cString nul (text ++ nul :: rest) = some text := by
  have hstop : (nul :: rest).takeWhile (· ≠ nul) = [] := by
    rw [List.takeWhile_cons, if_neg (by simp)]
  unfold cString
  rw [if_pos (List.mem_append_right text List.mem_cons_self), List.takeWhile_append,
    takeWhile_ne_of_notMem h, if_pos rfl, hstop, List.append_nil]

/-- `strcpy` stays in the field if and only if there is room for the terminator too. -/
theorem strcpy_eq_none {text : List α} (h : nul ∉ text) (dst : Vector α n) :
    strcpy nul dst text = none ↔ n ≤ text.length := by
  unfold strcpy
  rw [takeWhile_ne_of_notMem h]
  dsimp only
  split
  · rename_i hlt
    exact iff_of_false (by simp) (by omega)
  · rename_i hge
    exact iff_of_true rfl (by omega)

/-- The field after the copy: the text, the terminator, and what was there. -/
theorem toList_of_strcpy {text : List α} (h : nul ∉ text) {dst field : Vector α n}
    (hfield : strcpy nul dst text = some field) :
    field.toList = text ++ nul :: dst.toList.drop (text.length + 1) := by
  unfold strcpy at hfield
  rw [takeWhile_ne_of_notMem h] at hfield
  dsimp only at hfield
  split at hfield
  · rename_i hlt
    rw [← Option.some.inj hfield, Vector.toList_ofFn]
    refine List.ext_getElem ?_ fun i hi hi' => ?_
    · simp only [List.length_ofFn, List.length_append, List.length_cons, List.length_drop,
        Vector.length_toList]
      omega
    · rw [List.getElem_ofFn]
      rcases lt_trichotomy i text.length with hbefore | rfl | hbehind
      · simp [List.getElem?_append_left, List.getElem_append_left, hbefore]
      · simp
      · have hgarbage : (text ++ [nul])[i]? = none := by
          rw [List.getElem?_eq_none_iff, List.length_append, List.length_singleton]
          omega
        have hplace : i - text.length = (i - (text.length + 1)) + 1 := by omega
        simp only [hgarbage, Option.getD_none, List.getElem_append_right hbehind.le, hplace,
          List.getElem_cons_succ, List.getElem_drop, Vector.getElem_toList, Fin.getElem_fin]
        congr 1
        omega
  · cases hfield

/-- **What was copied reads back**, whatever the field held before. -/
theorem cString_of_strcpy {text : List α} (h : nul ∉ text) {dst field : Vector α n}
    (hfield : strcpy nul dst text = some field) : cString nul field.toList = some text := by
  rw [toList_of_strcpy h hfield, cString_append_cons h]

end
