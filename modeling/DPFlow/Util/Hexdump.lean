import DPFlow.Lib.Blocks
import Mathlib.Data.UInt

/-!
# Hexadecimal dumps

`hexdump` writes two digits a byte and decides by the iterator's position whether a separator
follows, so its result is the digits with the separator between every two bytes. Strings are
lists of bytes, as a `std::string` is.

## Main definitions

* `Util.hexdump` — the dump of a byte vector.
* `Util.hexBytes` — the two digits of a byte, as blocks of one width.
-/
namespace DPFlow.Util

open Lib

/-- A digit, in upper case. -/
def hexDigit (n : UInt8) : UInt8 := if n < 10 then 0x30 + n else 0x41 + (n - 10)

/-- `{:02X}` of a byte. -/
def formatByte (b : UInt8) : List UInt8 := [hexDigit (b >>> 4), hexDigit (b &&& 0xF)]

/-- The loop, with the buffer so far and the bytes from the iterator on. -/
def hexdumpLoop (sep out : List UInt8) : List UInt8 → List UInt8
  | [] => out
  | b :: rest => hexdumpLoop sep (out ++ (formatByte b ++ if rest = [] then [] else sep)) rest

def hexdump (data : List UInt8) (sep : List UInt8 := [0x20]) : List UInt8 :=
  hexdumpLoop sep [] data

/-! ## The digits of a byte -/

/-- A half of a byte is read back from its digit. -/
theorem hexDigit_injOn {m n : UInt8} (hm : m < 16) (hn : n < 16) (h : hexDigit m = hexDigit n) :
    m = n := by
  rw [UInt8.lt_iff_toNat_lt] at hm hn
  have hnat := congrArg UInt8.toNat h
  simp only [hexDigit, UInt8.lt_iff_toNat_lt, UInt8.reduceToNat] at hm hn hnat
  apply UInt8.toNat_inj.mp
  split_ifs at hnat <;> simp [UInt8.toNat_sub] at hnat <;> omega

theorem toNat_highHalf (b : UInt8) : (b >>> 4).toNat = b.toNat / 16 := by
  rw [UInt8.toNat_shiftRight, Nat.shiftRight_eq_div_pow]
  rfl

theorem toNat_lowHalf (b : UInt8) : (b &&& 0xF).toNat = b.toNat % 16 := by
  rw [UInt8.toNat_and]
  exact Nat.and_two_pow_sub_one_eq_mod b.toNat 4

theorem formatByte_injective : Function.Injective formatByte := by
  intro b c h
  have hb := b.toNat_lt
  have hc := c.toNat_lt
  rw [formatByte, formatByte, List.cons.injEq, List.cons.injEq] at h
  have hhigh : b >>> 4 = c >>> 4 := by
    refine hexDigit_injOn ?_ ?_ h.1 <;> rw [UInt8.lt_iff_toNat_lt, toNat_highHalf]
    · exact Nat.div_lt_of_lt_mul hb
    · exact Nat.div_lt_of_lt_mul hc
  have hlow : b &&& 0xF = c &&& 0xF := by
    refine hexDigit_injOn ?_ ?_ h.2.1 <;> rw [UInt8.lt_iff_toNat_lt, toNat_lowHalf]
    · exact Nat.mod_lt _ (by decide)
    · exact Nat.mod_lt _ (by decide)
  have hdiv := congrArg UInt8.toNat hhigh
  have hmod := congrArg UInt8.toNat hlow
  rw [toNat_highHalf, toNat_highHalf] at hdiv
  rw [toNat_lowHalf, toNat_lowHalf] at hmod
  apply UInt8.toNat_inj.mp
  omega

/-- The digits of a byte, as blocks of one width. -/
def hexBytes : Blocks UInt8 UInt8 where
  block := formatByte
  width := 2
  length_block _ := rfl

/-! ## The dump -/

/-- The loop adds the blocks that are left, with separators between them. -/
theorem hexdumpLoop_eq (sep out data : List UInt8) :
    hexdumpLoop sep out data = out ++ hexBytes.join sep data := by
  induction data generalizing out with
  | nil => rw [hexdumpLoop, Blocks.join_nil, List.append_nil]
  | cons b rest ih =>
      rw [hexdumpLoop, ih, List.append_assoc]
      by_cases hlast : rest = []
      · rw [if_pos hlast, hlast, Blocks.join_nil, Blocks.join_singleton, List.append_nil,
          List.append_nil]
        rfl
      · rw [if_neg hlast, Blocks.join_cons hexBytes sep b hlast]
        rfl

theorem hexdump_eq_join (data sep : List UInt8) : hexdump data sep = hexBytes.join sep data := by
  rw [hexdump, hexdumpLoop_eq, List.nil_append]

/-- **What a dump is.** It is empty for no bytes, and otherwise as long as two digits a byte
and a separator between every two; the digits of each byte, and a separator behind each but
the last, stand where their number says; a dump of two vectors one after the other is the two
dumps with a separator between; and the dump tells the bytes, whatever the separator is. -/
theorem hexdump_layout :
    (∀ sep, hexdump [] sep = []) ∧
    (∀ data sep, data ≠ [] →
      (hexdump data sep).length = 2 * data.length + (data.length - 1) * sep.length) ∧
    (∀ data sep i (hi : i < data.length),
      ((hexdump data sep).drop (i * (2 + sep.length))).take 2 = formatByte data[i]) ∧
    (∀ data sep i, i + 1 < data.length →
      ((hexdump data sep).drop (i * (2 + sep.length) + 2)).take sep.length = sep) ∧
    (∀ a b sep, a ≠ [] → b ≠ [] →
      hexdump (a ++ b) sep = hexdump a sep ++ sep ++ hexdump b sep) ∧
    ∀ sep, Function.Injective fun data => hexdump data sep := by
  simp only [hexdump_eq_join]
  refine ⟨hexBytes.join_nil, ?_, ?_, ?_, ?_, ?_⟩
  · intro data sep hdata
    rw [hexBytes.length_join sep hdata, Nat.mul_comm 2]
    rfl
  · intro data sep i hi
    exact hexBytes.take_drop_join sep hi
  · intro data sep i hi
    exact hexBytes.take_drop_join_sep sep hi
  · intro a b sep ha hb
    exact hexBytes.join_append sep ha hb
  · intro sep
    exact hexBytes.join_injective sep formatByte_injective Nat.two_pos

/-- `DE AD BE EF`. -/
example : hexdump [222, 173, 190, 239] =
    [0x44, 0x45, 0x20, 0x41, 0x44, 0x20, 0x42, 0x45, 0x20, 0x45, 0x46] := by decide

end DPFlow.Util
