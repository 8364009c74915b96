import Mathlib.Data.List.Basic
import Mathlib.Tactic.Ring

/-!
# Blocks with a separator between them

Values are written as blocks of one width, with a separator between every two. The separator
may be any word, one that could be mistaken for blocks as well: where a block begins follows
from its number, so the text determines the values as soon as a block determines its value.

## Main definitions

* `Blocks α β` — blocks of one width.
* `Blocks.join` — the text of a list of values.
-/
namespace DPFlow.Lib

universe u v

/-- A block of symbols for each value, all of one width. -/
structure Blocks (α : Type u) (β : Type v) where
  block : α → List β
  width : ℕ
  length_block : ∀ a, (block a).length = width

namespace Blocks
variable {α : Type u} {β : Type v} (B : Blocks α β) (sep : List β)

/-- The blocks of a list of values, with the separator between every two. -/
def join (d : List α) : List β := sep.intercalate (d.map B.block)

@[simp] theorem join_nil : B.join sep [] = [] := rfl
@[simp] theorem join_singleton (a : α) : B.join sep [a] = B.block a := by simp [join]
@[simp] theorem join_cons_cons (a b : α) (d : List α) :
    B.join sep (a :: b :: d) = B.block a ++ sep ++ B.join sep (b :: d) := by simp [join]

theorem join_cons (a : α) {d : List α} (hd : d ≠ []) :
    B.join sep (a :: d) = B.block a ++ sep ++ B.join sep d := by
  obtain ⟨b, d, rfl⟩ := List.exists_cons_of_ne_nil hd
  exact B.join_cons_cons sep a b d

/-- Two texts make one, with a separator between them. -/
theorem join_append {d e : List α} (hd : d ≠ []) (he : e ≠ []) :
    B.join sep (d ++ e) = B.join sep d ++ sep ++ B.join sep e := by
  induction d with
  | nil => exact absurd rfl hd
  | cons a d ih =>
      by_cases hnil : d = []
      · rw [hnil, List.singleton_append, join_cons B sep a he, join_singleton]
      · have hrest : d ++ e ≠ [] := List.append_ne_nil_of_left_ne_nil hnil e
        rw [List.cons_append, join_cons B sep a hrest, ih hnil, join_cons B sep a hnil]
        simp only [List.append_assoc]

theorem length_join {d : List α} (hd : d ≠ []) :
    (B.join sep d).length = d.length * B.width + (d.length - 1) * sep.length := by
  induction d with
  | nil => exact absurd rfl hd
  | cons a d ih =>
      by_cases hnil : d = []
      · rw [hnil, join_singleton, B.length_block]
        simp
      · obtain ⟨n, hn⟩ := Nat.exists_eq_succ_of_ne_zero (mt List.length_eq_zero_iff.mp hnil)
        rw [join_cons B sep a hnil, List.length_append, List.length_append, ih hnil,
          B.length_block, List.length_cons, hn]
        simp only [Nat.succ_sub_one]
        ring

/-- What stands behind the first block. -/
def behind : List α → List β
  | [] => []
  | b :: d => sep ++ B.join sep (b :: d)

theorem join_eq_block_append (a : α) (d : List α) :
    B.join sep (a :: d) = B.block a ++ B.behind sep d := by
  cases d with
  | nil => rw [join_singleton, behind, List.append_nil]
  | cons b d => rw [join_cons_cons, behind, List.append_assoc]

/-- Block `i` and what follows it begin at the offset of `i` blocks and separators. -/
theorem drop_join {d : List α} {i : ℕ} (hi : i < d.length) :
    (B.join sep d).drop (i * (B.width + sep.length)) = B.join sep (d.drop i) := by
  induction d generalizing i with
  | nil => cases hi
  | cons a d ih =>
      cases i with
      | zero => simp
      | succ i =>
          have hlt : i < d.length := Nat.lt_of_succ_lt_succ hi
          have hnil : d ≠ [] := List.ne_nil_of_length_pos (Nat.zero_lt_of_lt hlt)
          have hskip : (B.block a ++ sep).length = B.width + sep.length := by
            rw [List.length_append, B.length_block]
          rw [join_cons B sep a hnil, Nat.succ_mul, Nat.add_comm, ← List.drop_drop, ← hskip,
            List.drop_left, hskip, ih hlt, List.drop_succ_cons]

/-- The symbols there are those of value `i`. -/
theorem take_drop_join {d : List α} {i : ℕ} (hi : i < d.length) :
    ((B.join sep d).drop (i * (B.width + sep.length))).take B.width = B.block d[i] := by
  rw [B.drop_join sep hi, List.drop_eq_getElem_cons hi, join_eq_block_append]
  exact List.take_left' (B.length_block _)

/-- Behind every block but the last stands the separator. -/
theorem take_drop_join_sep {d : List α} {i : ℕ} (hi : i + 1 < d.length) :
    ((B.join sep d).drop (i * (B.width + sep.length) + B.width)).take sep.length = sep := by
  have hlt : i < d.length := Nat.lt_of_succ_lt hi
  have hnil : d.drop (i + 1) ≠ [] := by
    rw [Ne, List.drop_eq_nil_iff]
    omega
  rw [← List.drop_drop, B.drop_join sep hlt, List.drop_eq_getElem_cons hlt,
    join_cons B sep _ hnil, List.append_assoc, List.drop_left' (B.length_block _)]
  exact List.take_left

theorem join_ne_nil (hwidth : 0 < B.width) (a : α) (d : List α) : B.join sep (a :: d) ≠ [] := by
  intro hnil
  have hlength := congrArg List.length hnil
  rw [join_eq_block_append, List.length_append, B.length_block, List.length_nil] at hlength
  omega

/-- **A text determines its values**, when a block does, whatever the separator is. -/
theorem join_injective (hblock : Function.Injective B.block) (hwidth : 0 < B.width) :
    Function.Injective (B.join sep) := by
  intro d e h
  induction d generalizing e with
  | nil =>
      cases e with
      | nil => rfl
      | cons b e => exact absurd h.symm (B.join_ne_nil sep hwidth b e)
  | cons a d ih =>
      cases e with
      | nil => exact absurd h (B.join_ne_nil sep hwidth a d)
      | cons b e =>
          have hwidths : (B.block a).length = (B.block b).length := by
            rw [B.length_block, B.length_block]
          rw [join_eq_block_append, join_eq_block_append] at h
          obtain ⟨hfirst, hrest⟩ := List.append_inj h hwidths
          rw [hblock hfirst]
          -- what is behind the first block says whether there is another
          cases d with
          | nil =>
              cases e with
              | nil => rfl
              | cons b' e =>
                  have hnil := (List.append_eq_nil_iff.mp hrest.symm).2
                  exact absurd hnil (B.join_ne_nil sep hwidth b' e)
          | cons a' d =>
              cases e with
              | nil =>
                  have hnil := (List.append_eq_nil_iff.mp hrest).2
                  exact absurd hnil (B.join_ne_nil sep hwidth a' d)
              | cons b' e => rw [ih (List.append_cancel_left hrest)]

end Blocks
end DPFlow.Lib
