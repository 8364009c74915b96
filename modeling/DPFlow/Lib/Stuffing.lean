import Mathlib.Algebra.Ring.Parity
import Mathlib.Computability.Language
import Mathlib.Data.List.Induction
import Mathlib.Data.Set.Function

/-!
# Escape stuffing

A stuffing code sends a symbol as itself, or, when it is special, behind an escape
symbol. The escape symbol is special, so runs of it pair off from the left. The code
is a bijection from all words onto the words built from plain symbols and escaped
special ones; decoding drops each escaping symbol and is partial, since a word may
end inside an escape.

## Main definitions

* `Stuffing α` — the escape symbol and the special symbols.
* `Stuffing.encode`, `Stuffing.decode` — the code.
* `Stuffing.codewords` — the language `(plain | esc special)*`.
* `Stuffing.introduces`, `Stuffing.kept` — the symbols that decoding drops, and the others.
-/
namespace DPFlow.Lib

universe u

/-- The symbols of a word, each with all that stands before it; `p` stands before the word. -/
def inContext {α : Type u} (p : List α) : List α → List (List α × α)
  | [] => []
  | b :: e => (p, b) :: inContext (p ++ [b]) e

@[simp] theorem inContext_nil {α : Type u} (p : List α) : inContext p [] = [] := rfl
@[simp] theorem inContext_cons {α : Type u} (p : List α) (b : α) (e : List α) :
    inContext p (b :: e) = (p, b) :: inContext (p ++ [b]) e := rfl
@[simp] theorem length_inContext {α : Type u} (p e : List α) :
    (inContext p e).length = e.length := by
  induction e generalizing p with
  | nil => rfl
  | cons b e ih => rw [inContext_cons, List.length_cons, ih, List.length_cons]

/-- An escape symbol, and the symbols that are sent behind it. -/
structure Stuffing (α : Type u) where
  esc : α
  special : α → Bool
  special_esc : special esc = true

namespace Stuffing
variable {α : Type u} [DecidableEq α] (S : Stuffing α)

/-- One symbol, escaped where needed. -/
def block (b : α) : List α := if S.special b then [S.esc, b] else [b]

/-- A word, symbol by symbol. -/
def encode (d : List α) : List α := d.flatMap S.block

/-- Drop each escaping symbol; `none` when the word ends behind one. -/
def decode : List α → Option (List α)
  | [] => some []
  | [b] => if b = S.esc then none else some [b]
  | b :: c :: bs =>
      if b = S.esc then (decode bs).map (c :: ·) else (decode (c :: bs)).map (b :: ·)

/-- A plain symbol, as a word. -/
def plainWord : Language α := {e | ∃ b, S.special b = false ∧ e = [b]}

/-- A special symbol behind an escape. -/
def escapedWord : Language α := {e | ∃ b, S.special b = true ∧ e = [S.esc, b]}

/-- The language `(plain | esc special)*`. -/
def codewords : Language α := KStar.kstar (S.plainWord + S.escapedWord)

/-- How many escape symbols in a row a word ends with. -/
def trailing (p : List α) : ℕ := (p.reverse.takeWhile (· = S.esc)).length

omit [DecidableEq α] in
@[simp] theorem encode_nil : S.encode [] = [] := rfl
omit [DecidableEq α] in
@[simp] theorem encode_cons (b : α) (d : List α) :
    S.encode (b :: d) = S.block b ++ S.encode d := rfl
omit [DecidableEq α] in
@[simp] theorem encode_append (d e : List α) : S.encode (d ++ e) = S.encode d ++ S.encode e :=
  List.flatMap_append
@[simp] theorem decode_nil : S.decode [] = some [] := by simp [decode]

omit [DecidableEq α] in
/-- A plain symbol is not the escape symbol. -/
theorem ne_esc_of_plain {b : α} (h : S.special b = false) : b ≠ S.esc := by
  rintro rfl
  simp [S.special_esc] at h

theorem decode_cons_of_ne {b : α} (h : b ≠ S.esc) (t : List α) :
    S.decode (b :: t) = (S.decode t).map (b :: ·) := by
  cases t with
  | nil => simp [decode, h]
  | cons c t => simp [decode, h]

@[simp] theorem decode_esc_cons (b : α) (t : List α) :
    S.decode (S.esc :: b :: t) = (S.decode t).map (b :: ·) := by
  simp [decode]

/-- A block decodes to its symbol, whatever follows. -/
theorem decode_block_append (b : α) (t : List α) :
    S.decode (S.block b ++ t) = (S.decode t).map (b :: ·) := by
  cases hb : S.special b
  · simpa [block, hb] using S.decode_cons_of_ne (S.ne_esc_of_plain hb) t
  · simp [block, hb]

/-- **Decoding is the inverse of encoding**, and goes on with what follows. -/
theorem decode_encode_append (d t : List α) :
    S.decode (S.encode d ++ t) = (S.decode t).map (d ++ ·) := by
  induction d with
  | nil => cases h : S.decode t <;> simp [h]
  | cons b d ih =>
      rw [encode_cons, List.append_assoc, decode_block_append, ih, Option.map_map]
      rfl

theorem decode_encode (d : List α) : S.decode (S.encode d) = some d := by
  simpa using S.decode_encode_append d []

theorem encode_injective : Function.Injective S.encode := by
  intro d e h
  have hd := S.decode_encode d
  rw [h, S.decode_encode e] at hd
  exact (Option.some.inj hd).symm

/-! ## The image of the code -/

omit [DecidableEq α] in
theorem encode_mem_codewords (d : List α) : S.encode d ∈ S.codewords := by
  rw [codewords, Language.mem_kstar]
  refine ⟨d.map S.block, by simp [encode, List.flatMap_def], ?_⟩
  intro e he
  obtain ⟨b, -, rfl⟩ := List.mem_map.mp he
  cases hb : S.special b
  · exact Or.inl ⟨b, hb, by simp [block, hb]⟩
  · exact Or.inr ⟨b, hb, by simp [block, hb]⟩

omit [DecidableEq α] in
/-- A word of the language is a code word: its pieces are blocks. -/
theorem exists_encode_of_mem {e : List α} (he : e ∈ S.codewords) : ∃ d, S.encode d = e := by
  rw [codewords, Language.mem_kstar] at he
  obtain ⟨pieces, rfl, hpieces⟩ := he
  induction pieces with
  | nil => exact ⟨[], rfl⟩
  | cons p pieces ih =>
      obtain ⟨d, hd⟩ := ih fun q hq => hpieces q (List.mem_cons_of_mem p hq)
      rcases hpieces p List.mem_cons_self with ⟨b, hb, rfl⟩ | ⟨b, hb, rfl⟩
      · exact ⟨b :: d, by simp [block, hb, hd]⟩
      · exact ⟨b :: d, by simp [block, hb, hd]⟩

/-- **The code is a bijection onto its language.** -/
theorem bijOn_encode : Set.BijOn S.encode Set.univ (S.codewords : Set (List α)) := by
  refine ⟨fun d _ => S.encode_mem_codewords d, S.encode_injective.injOn, ?_⟩
  intro e he
  obtain ⟨d, rfl⟩ := S.exists_encode_of_mem he
  exact ⟨d, trivial, rfl⟩

/-- Encoding what a word decodes to gives the word back exactly on the language. -/
theorem encode_decode_iff {e d : List α} (h : S.decode e = some d) :
    S.encode d = e ↔ e ∈ S.codewords := by
  constructor
  · rintro rfl
    exact S.encode_mem_codewords d
  · intro he
    obtain ⟨d', rfl⟩ := S.exists_encode_of_mem he
    rw [S.decode_encode] at h
    rw [Option.some.inj h]

/-! ## Where a special symbol can stand -/

theorem trailing_append_singleton (p : List α) (b : α) :
    S.trailing (p ++ [b]) = if b = S.esc then S.trailing p + 1 else 0 := by
  rw [trailing, List.reverse_append]
  by_cases hb : b = S.esc
  · simp [trailing, hb]
  · simp [hb]

/-- A code word ends outside an escape: its last run of escapes pairs off. -/
theorem even_trailing_encode (d : List α) : Even (S.trailing (S.encode d)) := by
  induction d using List.reverseRecOn with
  | nil => simp [trailing]
  | append_singleton d b ih =>
      have hblock : S.encode (d ++ [b]) = S.encode d ++ S.block b := by simp
      rw [hblock]
      by_cases hb : b = S.esc
      · subst hb
        have hpair : S.encode d ++ S.block S.esc = S.encode d ++ [S.esc] ++ [S.esc] := by
          simp [block, S.special_esc]
        rw [hpair, trailing_append_singleton, trailing_append_singleton, if_pos rfl, if_pos rfl]
        exact (ih.add_one).add_one
      · have hlast : ∃ p, S.encode d ++ S.block b = p ++ [b] := by
          cases h : S.special b
          · exact ⟨S.encode d, by simp [block, h]⟩
          · exact ⟨S.encode d ++ [S.esc], by simp [block, h]⟩
        obtain ⟨p, hp⟩ := hlast
        rw [hp, trailing_append_singleton, if_neg hb]
        exact Even.zero

omit [DecidableEq α] in
/-- A special symbol other than the escape stands behind an escape of its own. -/
theorem exists_of_encode_eq {x : α} (hx : S.special x = true) (hne : x ≠ S.esc) :
    ∀ {d p s : List α}, S.encode d = p ++ x :: s → ∃ d', p = S.encode d' ++ [S.esc] := by
  intro d
  induction d with
  | nil => intro p s h; simp at h
  | cons b d ih =>
      intro p s h
      cases hb : S.special b
      · simp only [encode_cons, block, hb, Bool.false_eq_true, if_false, List.singleton_append] at h
        cases p with
        | nil =>
            have hbx : b = x := (List.cons.inj h).1
            simp [hbx, hx] at hb
        | cons q p =>
            obtain ⟨rfl, h'⟩ := List.cons.inj h
            obtain ⟨d', rfl⟩ := ih h'
            exact ⟨b :: d', by simp [block, hb]⟩
      · simp only [encode_cons, block, hb, if_true, List.cons_append, List.nil_append] at h
        cases p with
        | nil => exact absurd (List.cons.inj h).1.symm hne
        | cons q p =>
            obtain ⟨rfl, h'⟩ := List.cons.inj h
            cases p with
            | nil => exact ⟨[], rfl⟩
            | cons q' p =>
                obtain ⟨rfl, h''⟩ := List.cons.inj h'
                obtain ⟨d', rfl⟩ := ih h''
                exact ⟨b :: d', by simp [block, hb]⟩

/-- **A special symbol other than the escape stands only behind an unpaired escape**:
the escapes in a row right ahead of it are odd in number. -/
theorem odd_trailing_of_encode_eq {x : α} (hx : S.special x = true) (hne : x ≠ S.esc)
    {d p s : List α} (h : S.encode d = p ++ x :: s) : Odd (S.trailing p) := by
  obtain ⟨d', rfl⟩ := S.exists_of_encode_eq hx hne h
  rw [trailing_append_singleton, if_pos rfl]
  exact (S.even_trailing_encode d').add_one

/-- A code word that goes on behind another one does not go on with such a symbol. -/
theorem eq_nil_of_encode_append {x : α} (hx : S.special x = true) (hne : x ≠ S.esc)
    {d d' u s s' : List α} (hword : S.encode d' = S.encode d ++ u) (hrest : x :: s = u ++ x :: s') :
    u = [] := by
  cases u with
  | nil => rfl
  | cons y u =>
      obtain ⟨rfl, -⟩ := List.cons.inj hrest
      have hodd := S.odd_trailing_of_encode_eq hx hne hword
      exact absurd (S.even_trailing_encode d) (Nat.not_even_iff_odd.mpr hodd)

/-- **Such a symbol closes a code word**: what stands ahead of it is determined, and what stands
behind it. -/
theorem encode_append_cons_iff {x : α} (hx : S.special x = true) (hne : x ≠ S.esc)
    {d d' s s' : List α} :
    S.encode d ++ x :: s = S.encode d' ++ x :: s' ↔ d = d' ∧ s = s' := by
  constructor
  · intro h
    obtain ⟨u, hword, hrest⟩ | ⟨u, hword, hrest⟩ := List.append_eq_append_iff.mp h
    · obtain rfl := S.eq_nil_of_encode_append hx hne hword hrest
      rw [List.append_nil] at hword
      exact ⟨(S.encode_injective hword).symm, (List.cons.inj hrest).2⟩
    · obtain rfl := S.eq_nil_of_encode_append hx hne hword hrest
      rw [List.append_nil] at hword
      exact ⟨S.encode_injective hword, (List.cons.inj hrest).2.symm⟩
  · rintro ⟨rfl, rfl⟩
    rfl

/-! ## What decoding drops -/

/-- A symbol, in what stands before it, introduces an escape when it is the escape symbol and
the ones right ahead of it pair off. -/
def introduces (x : List α × α) : Bool := decide (x.2 = S.esc ∧ S.trailing x.1 % 2 = 0)

/-- The symbols of a word that introduce no escape, where `p` stands before the word. -/
def kept (p e : List α) : List α :=
  ((inContext p e).filter fun x => !S.introduces x).map Prod.snd

/-- How many symbols of the word introduce an escape. -/
def introduced (p e : List α) : ℕ := (inContext p e).countP S.introduces

@[simp] theorem kept_nil (p : List α) : S.kept p [] = [] := rfl

theorem kept_cons_of_introduces {p : List α} {b : α} (h : S.introduces (p, b) = true)
    (e : List α) : S.kept p (b :: e) = S.kept (p ++ [b]) e := by
  rw [kept, inContext_cons, List.filter_cons_of_neg (by simp [h])]
  rfl

theorem kept_cons_of_not_introduces {p : List α} {b : α} (h : S.introduces (p, b) = false)
    (e : List α) : S.kept p (b :: e) = b :: S.kept (p ++ [b]) e := by
  rw [kept, inContext_cons, List.filter_cons_of_pos (by simp [h])]
  rfl

/-- Every symbol is kept or introduces an escape. -/
theorem length_kept_add_introduced (p e : List α) :
    (S.kept p e).length + S.introduced p e = e.length := by
  have hsplit := List.length_eq_length_filter_add (l := inContext p e) S.introduces
  rw [length_inContext] at hsplit
  rw [kept, introduced, List.length_map, List.countP_eq_length_filter, hsplit, Nat.add_comm]

/-- **Decoding drops the symbols that introduce an escape**, and fails when the word ends in
an odd number of escape symbols, which leaves the last escape without its symbol. -/
theorem decode_eq_kept {p e : List α} (hp : S.trailing p % 2 = 0) :
    S.decode e = if S.trailing (p ++ e) % 2 = 0 then some (S.kept p e) else none := by
  induction e using decode.induct S generalizing p with
  | case1 => simp [hp]
  | case2 =>
      have hodd : ¬ S.trailing (p ++ [S.esc]) % 2 = 0 := by
        rw [trailing_append_singleton, if_pos rfl]
        omega
      rw [if_neg hodd]
      simp [decode]
  | case3 b hb =>
      have hplain : S.introduces (p, b) = false := by simp [introduces, hb]
      rw [trailing_append_singleton, if_neg hb, if_pos rfl, kept_cons_of_not_introduces S hplain]
      simp [decode, hb]
  | case4 c e ih =>
      have hfirst : S.introduces (p, S.esc) = true := by simp [introduces, hp]
      have hodd : S.trailing (p ++ [S.esc]) % 2 = 1 := by
        rw [trailing_append_singleton, if_pos rfl]
        omega
      -- behind an odd run the next symbol introduces nothing, and the run is even again
      have hsecond : S.introduces (p ++ [S.esc], c) = false := by simp [introduces, hodd]
      have heven : S.trailing (p ++ [S.esc] ++ [c]) % 2 = 0 := by
        rw [trailing_append_singleton]
        split_ifs <;> omega
      rw [decode_esc_cons, ih heven, kept_cons_of_introduces S hfirst,
        kept_cons_of_not_introduces S hsecond, List.append_assoc, List.append_assoc,
        List.singleton_append, List.singleton_append]
      split_ifs <;> rfl
  | case5 b c e hb ih =>
      have hplain : S.introduces (p, b) = false := by simp [introduces, hb]
      have heven : S.trailing (p ++ [b]) % 2 = 0 := by
        rw [trailing_append_singleton, if_neg hb]
      rw [decode_cons_of_ne S hb, ih heven, kept_cons_of_not_introduces S hplain,
        List.append_assoc, List.singleton_append]
      split_ifs <;> rfl

end Stuffing
end DPFlow.Lib
