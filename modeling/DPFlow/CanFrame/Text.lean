import DPFlow.CanFrame.Basic
import DPFlow.Lib.Numeral
import DPFlow.Util.Hexdump

/-!
# Frames as text

A frame is logged as one line: the time, the identifier in three or eight hexadecimal digits, the
number of bytes, and for a data frame the bytes. The fields have no fixed width, and they are told
apart by the characters between them.

The formatting library is not part of the source. Its text of the date and the hour is a parameter.
Its numbers are taken to be what its manual says: `{:X}` and `{}` give the hexadecimal digits in
upper case and the decimal digits, and a width with a leading zero has zeros put in front of them,
behind the sign.

## Main definitions

* `CanFrame.Timestamp.format`, `CanFrame.format` — the formatters.
* `CanFrame.line` — the text of the frames that have one of their own, by its parts.
-/
namespace DPFlow.CanFrame

open Lib

/-- The characters of a plain text. -/
def ascii (s : String) : List UInt8 := s.toList.map fun c => c.toNat.toUInt8

/-! ## Numbers -/

theorem toNat_toUInt8 {n : ℕ} (hn : n < 16) : n.toUInt8.toNat = n :=
  Nat.mod_eq_of_lt (hn.trans (by decide))

/-- The digits of a base up to sixteen, in upper case. -/
def digits (base : ℕ) (hbase : 1 < base ∧ base ≤ 16) : Numerals UInt8 where
  base := base
  digit d := Util.hexDigit d.toUInt8
  one_lt := hbase.1
  injOn := by
    intro m n hm hn h
    have hm16 : m < 16 := hm.trans_le hbase.2
    have hn16 : n < 16 := hn.trans_le hbase.2
    have hlt : ∀ {d : ℕ}, d < 16 → d.toUInt8 < 16 := fun hd => by
      rw [UInt8.lt_iff_toNat_lt, toNat_toUInt8 hd]
      exact hd
    rw [← toNat_toUInt8 hm16, Util.hexDigit_injOn (hlt hm16) (hlt hn16) h, toNat_toUInt8 hn16]

/-- The library's `{:X}`, by its manual: the hexadecimal digits in upper case. -/
def hex : Numerals UInt8 := digits 16 (by decide)

/-- The library's `{}` of a count, by its manual: the decimal digits. -/
def decimal : Numerals UInt8 := digits 10 (by decide)

/-- The library's `{:0d}` with a width, by its manual: the decimal digits behind as many zeros as
the width asks for, and these behind the sign. -/
def formatInt (width : ℕ) (n : Int) : List UInt8 :=
  if n < 0 then 0x2D :: decimal.padded (width - 1) n.natAbs else decimal.padded width n.natAbs

/-! ## The formatters -/

/-- `fmt::formatter<CanFrame::Timestamp>`, with the library's text of a time in whole seconds. -/
def Timestamp.format (calendar : Int32 → List UInt8) (ts : Timestamp) : List UInt8 :=
  calendar ts.seconds.toInt32 ++ ascii "." ++ formatInt 9 ts.nanoseconds.toInt

/-- `fmt::formatter<CanFrame>`. -/
def format (calendar : Int32 → List UInt8) (frame : CanFrame) : List UInt8 :=
  let width := if frame.isExtendedId then 8 else 3
  match frame.frameType with
  | .invalidFrame => ascii "[INVALID FRAME]"
  | .dataFrame => frame.timestamp.format calendar ++ ascii " 0x" ++
      hex.padded width frame.id.toNat ++ ascii "  [" ++ decimal.padded 1 frame.payload.length ++
      ascii "] " ++ Util.hexdump frame.payload
  | .errorFrame => ascii "[ERROR FRAME]"
  | .remoteRequestFrame => frame.timestamp.format calendar ++ ascii " 0x" ++
      hex.padded width frame.id.toNat ++ ascii "r [" ++ decimal.padded 1 frame.payload.length ++
      ascii "]"
  | .unknownFrame => ascii "[UNKNOWN FRAME]"

/-! ## Characters -/

/-- From `0` to `F`. -/
def IsDigit (c : UInt8) : Prop := 0x30 ≤ c.toNat ∧ c.toNat ≤ 0x46

instance : DecidablePred IsDigit := fun _ => inferInstanceAs (Decidable (_ ∧ _))

theorem isDigit_of_mem {base : ℕ} {hbase : 1 < base ∧ base ≤ 16} {width n : ℕ} {c : UInt8}
    (hc : c ∈ (digits base hbase).padded width n) : IsDigit c := by
  obtain ⟨d, hd, rfl⟩ := (digits base hbase).exists_of_mem_padded hc
  have hd16 : d < 16 := Nat.lt_of_lt_of_le hd hbase.2
  change IsDigit (Util.hexDigit d.toUInt8)
  interval_cases d <;> decide

theorem formatInt_inj {width : ℕ} {m n : Int} (h : formatInt width m = formatInt width n) :
    m = n := by
  have hsign : ∀ {w k} {c : UInt8} {rest}, ¬ IsDigit c → decimal.padded w k ≠ c :: rest := by
    intro w k c rest hc hcons
    refine hc (isDigit_of_mem (?_ : c ∈ decimal.padded w k))
    rw [hcons]
    exact List.mem_cons_self
  rw [formatInt, formatInt] at h
  split_ifs at h with hm hn hn
  · have habs := decimal.eq_of_padded_eq (List.cons.inj h).2
    omega
  · exact absurd h.symm (hsign (by decide))
  · exact absurd h (hsign (by decide))
  · have habs := decimal.eq_of_padded_eq h
    omega

theorem mem_formatInt {width : ℕ} {n : Int} {c : UInt8} (hc : c ∈ formatInt width n) :
    IsDigit c ∨ c = 0x2D := by
  rw [formatInt] at hc
  split_ifs at hc
  · rcases List.mem_cons.mp hc with rfl | hc
    · exact .inr rfl
    · exact .inl (isDigit_of_mem hc)
  · exact .inl (isDigit_of_mem hc)

/-! ## Lines -/

/-- The text of the frames that have one of their own: the time, the identifier, a mark, the number
of bytes, and the bytes. -/
def line (time id : List UInt8) (mark : UInt8) (size tail : List UInt8) : List UInt8 :=
  (time ++ ascii " 0") ++ 0x78 :: (id ++ mark :: (ascii " [" ++ (size ++ 0x5D :: tail)))

/-- The frames that are written as a line. -/
def HasLine (frame : CanFrame) : Prop :=
  frame.frameType = .dataFrame ∨ frame.frameType = .remoteRequestFrame

/-- The parts of the line that tell the two types apart. -/
def mark (frame : CanFrame) : UInt8 := if frame.frameType = .dataFrame then 0x20 else 0x72

def tail (frame : CanFrame) : List UInt8 :=
  if frame.frameType = .dataFrame then 0x20 :: Util.hexdump frame.payload else []

section line
variable {calendar : Int32 → List UInt8} {frame f g : CanFrame}

theorem format_of_hasLine (h : frame.HasLine) : frame.format calendar =
    line (frame.timestamp.format calendar)
      (hex.padded (if frame.isExtendedId then 8 else 3) frame.id.toNat) frame.mark
      (decimal.padded 1 frame.payload.length) frame.tail := by
  rcases h with h | h <;> simp [format, h, line, mark, tail, ascii]

theorem not_isDigit_mark (frame : CanFrame) : ¬ IsDigit frame.mark := by
  rw [mark]
  split_ifs <;> decide

/-- A line is told apart by the characters between its parts. -/
theorem line_inj {time time' id id' size size' tail tail' : List UInt8} {mark mark' : UInt8}
    (htime : 0x78 ∉ time) (htime' : 0x78 ∉ time') (hid : ∀ c ∈ id, IsDigit c)
    (hid' : ∀ c ∈ id', IsDigit c) (hmark : ¬ IsDigit mark) (hmark' : ¬ IsDigit mark')
    (hsize : ∀ c ∈ size, IsDigit c) (hsize' : ∀ c ∈ size', IsDigit c) :
    line time id mark size tail = line time' id' mark' size' tail' ↔
      time = time' ∧ id = id' ∧ mark = mark' ∧ size = size' ∧ tail = tail' := by
  have hplain : ∀ {time : List UInt8}, 0x78 ∉ time → ∀ c ∈ time ++ ascii " 0", c ≠ 0x78 := by
    intro time htime c hc h
    subst h
    rcases List.mem_append.mp hc with hc | hc
    · exact htime hc
    · exact absurd hc (by decide)
  rw [line, line, append_cons_inj_of_forall (hplain htime) (hplain htime') (not_not_intro rfl)
    (not_not_intro rfl), append_cons_inj_of_forall hid hid' hmark hmark', List.append_right_inj,
    append_cons_inj_of_forall hsize hsize' (by decide) (by decide), List.append_left_inj]
  simp only [true_and]

theorem Timestamp.format_inj (hcalendar : Function.Injective calendar) {ts ts' : Timestamp} :
    ts.format calendar = ts'.format calendar ↔
      ts.seconds.toInt32 = ts'.seconds.toInt32 ∧ ts.nanoseconds = ts'.nanoseconds := by
  have hreverse : ∀ ts : Timestamp, (ts.format calendar).reverse =
      (formatInt 9 ts.nanoseconds.toInt).reverse ++ 0x2E :: (calendar ts.seconds.toInt32).reverse :=
    fun ts => by simp [Timestamp.format, ascii]
  have hplain : ∀ n : Int, ∀ c ∈ (formatInt 9 n).reverse, c ≠ 0x2E := by
    intro n c hc h
    subst h
    rcases mem_formatInt (List.mem_reverse.mp hc) with hc | hc
    · exact absurd hc (by decide)
    · exact absurd hc (by decide)
  -- the point is the last one, whatever the library writes
  rw [← List.reverse_inj, hreverse, hreverse, append_cons_inj_of_forall (hplain _) (hplain _)
    (not_not_intro rfl) (not_not_intro rfl), List.reverse_inj, List.reverse_inj]
  constructor
  · rintro ⟨hns, -, hs⟩
    exact ⟨hcalendar hs, Int64.toInt_inj.mp (formatInt_inj hns)⟩
  · rintro ⟨hs, hns⟩
    rw [hs, hns]
    exact ⟨rfl, rfl, rfl⟩

/-- An identifier tells its number, and whether it is an extended one as long as it has a digit
less than those. -/
theorem hex_inj {ext ext' : Bool} {m n : ℕ} :
    hex.padded (if ext then 8 else 3) m = hex.padded (if ext' then 8 else 3) n ↔
      m = n ∧ (ext = ext' ∨ 2 ^ 28 ≤ m) := by
  have hwidth : ∀ k, hex.padded 3 k = hex.padded 8 k ↔ 2 ^ 28 ≤ k :=
    fun k => hex.padded_eq_iff_of_lt (by decide)
  constructor
  · intro h
    obtain rfl := hex.eq_of_padded_eq h
    refine ⟨rfl, ?_⟩
    cases ext <;> cases ext'
    · exact .inl rfl
    · exact .inr ((hwidth m).mp h)
    · exact .inr ((hwidth m).mp h.symm)
    · exact .inl rfl
  · rintro ⟨rfl, rfl | hlong⟩
    · rfl
    · have hsame := (hwidth m).mpr hlong
      cases ext <;> cases ext'
      · rfl
      · exact hsame
      · exact hsame.symm
      · rfl

theorem mem_format_of_hasLine (h : frame.HasLine) : 0x78 ∈ frame.format calendar := by
  rw [format_of_hasLine h, line]
  exact List.mem_append_right _ List.mem_cons_self

/-- The other texts are fixed, and different for different types. -/
theorem format_of_not_hasLine (h : ¬ frame.HasLine) : 0x78 ∉ frame.format calendar ∧
    (¬ g.HasLine → (frame.format calendar = g.format calendar ↔ frame.frameType = g.frameType)) := by
  have hfixed : ∀ {frame : CanFrame}, ¬ frame.HasLine →
      (frame.frameType = .invalidFrame ∧ frame.format calendar = ascii "[INVALID FRAME]") ∨
      (frame.frameType = .errorFrame ∧ frame.format calendar = ascii "[ERROR FRAME]") ∨
      (frame.frameType = .unknownFrame ∧ frame.format calendar = ascii "[UNKNOWN FRAME]") := by
    intro frame h
    cases ht : frame.frameType with
    | dataFrame => exact absurd (.inl ht) h
    | remoteRequestFrame => exact absurd (.inr ht) h
    | invalidFrame => exact .inl ⟨rfl, by simp [format, ht]⟩
    | errorFrame => exact .inr (.inl ⟨rfl, by simp [format, ht]⟩)
    | unknownFrame => exact .inr (.inr ⟨rfl, by simp [format, ht]⟩)
  constructor
  · rcases hfixed h with ⟨-, htext⟩ | ⟨-, htext⟩ | ⟨-, htext⟩ <;> rw [htext] <;> decide
  · intro h'
    rcases hfixed h with ⟨ht, htext⟩ | ⟨ht, htext⟩ | ⟨ht, htext⟩ <;>
      rcases hfixed h' with ⟨ht', htext'⟩ | ⟨ht', htext'⟩ | ⟨ht', htext'⟩ <;>
      rw [ht, htext, ht', htext'] <;> decide

theorem mark_tail_inj (hf : f.HasLine) (hg : g.HasLine) :
    f.mark = g.mark ∧ f.tail = g.tail ↔
      f.frameType = g.frameType ∧ (f.frameType = .dataFrame → f.payload = g.payload) := by
  have hdump : Util.hexdump f.payload = Util.hexdump g.payload ↔ f.payload = g.payload := by
    rw [Util.hexdump_eq_join, Util.hexdump_eq_join]
    exact (Util.hexBytes.join_injective [0x20] Util.formatByte_injective Nat.two_pos).eq_iff
  rcases hf with hf | hf <;> rcases hg with hg | hg <;> simp [mark, tail, hf, hg, hdump]

theorem Timestamp.not_mem_format (hplain : ∀ s, 0x78 ∉ calendar s) (ts : Timestamp) :
    0x78 ∉ ts.format calendar := by
  intro h
  rw [Timestamp.format, List.mem_append, List.mem_append] at h
  rcases h with (h | h) | h
  · exact hplain _ h
  · exact absurd h (by decide)
  · rcases mem_formatInt h with h | h
    · exact absurd h (by decide)
    · exact absurd h (by decide)

theorem line_eq_iff (hcalendar : Function.Injective calendar) (hplain : ∀ s, 0x78 ∉ calendar s)
    (hf : f.HasLine) (hg : g.HasLine) : f.format calendar = g.format calendar ↔
      (f.timestamp.seconds.toInt32 = g.timestamp.seconds.toInt32 ∧
        f.timestamp.nanoseconds = g.timestamp.nanoseconds) ∧
      (f.id = g.id ∧ (f.isExtendedId = g.isExtendedId ∨ 2 ^ 28 ≤ f.id.toNat)) ∧
      f.payload.length = g.payload.length ∧
      f.frameType = g.frameType ∧ (f.frameType = .dataFrame → f.payload = g.payload) := by
  have hsize : decimal.padded 1 f.payload.length = decimal.padded 1 g.payload.length ↔
      f.payload.length = g.payload.length :=
    ⟨decimal.eq_of_padded_eq, congrArg _⟩
  have hhex : ∀ w n, ∀ c ∈ hex.padded w n, IsDigit c := fun w n c => isDigit_of_mem
  have hdecimal : ∀ w n, ∀ c ∈ decimal.padded w n, IsDigit c := fun w n c => isDigit_of_mem
  rw [format_of_hasLine hf, format_of_hasLine hg,
    line_inj (Timestamp.not_mem_format hplain _) (Timestamp.not_mem_format hplain _)
      (hhex _ _) (hhex _ _) (not_isDigit_mark f) (not_isDigit_mark g) (hdecimal _ _) (hdecimal _ _),
    Timestamp.format_inj hcalendar, hex_inj, hsize, BitVec.toNat_inj, ← mark_tail_inj hf hg]
  constructor
  · rintro ⟨htime, hid, hmark, hlength, htail⟩
    exact ⟨htime, hid, hlength, hmark, htail⟩
  · rintro ⟨htime, hid, hlength, hmark, htail⟩
    exact ⟨htime, hid, hmark, hlength, htail⟩

end line

/-- **What the text of a frame tells.** Two frames have the same text just when they are of one
type and, if it is one with a line, agree on the time to the nanosecond, the seconds taken as an
`int`; on the identifier, and on whether it is an extended one unless it has eight digits of its
own; on the number of bytes, and in a data frame on the bytes. -/
theorem format_eq_iff {calendar : Int32 → List UInt8} (hcalendar : Function.Injective calendar)
    (hplain : ∀ s, 0x78 ∉ calendar s) (f g : CanFrame) :
    f.format calendar = g.format calendar ↔ f.frameType = g.frameType ∧
      (f.HasLine → (f.timestamp.seconds.toInt32 = g.timestamp.seconds.toInt32 ∧
          f.timestamp.nanoseconds = g.timestamp.nanoseconds) ∧
        (f.id = g.id ∧ (f.isExtendedId = g.isExtendedId ∨ 2 ^ 28 ≤ f.id.toNat)) ∧
        f.payload.length = g.payload.length) ∧
      (f.frameType = .dataFrame → f.payload = g.payload) := by
  by_cases hf : f.HasLine
  · by_cases hg : g.HasLine
    · rw [line_eq_iff hcalendar hplain hf hg]
      constructor
      · rintro ⟨htime, hid, hlength, htype, hpayload⟩
        exact ⟨htype, fun _ => ⟨htime, hid, hlength⟩, hpayload⟩
      · rintro ⟨htype, hline, hpayload⟩
        obtain ⟨htime, hid, hlength⟩ := hline hf
        exact ⟨htime, hid, hlength, htype, hpayload⟩
    · refine iff_of_false ?_ ?_
      · intro h
        exact (format_of_not_hasLine (g := g) hg).1 (h ▸ mem_format_of_hasLine hf)
      · rintro ⟨htype, -⟩
        rw [HasLine, htype] at hf
        exact hg hf
  · by_cases hg : g.HasLine
    · refine iff_of_false ?_ ?_
      · intro h
        exact (format_of_not_hasLine (g := f) hf).1 (h ▸ mem_format_of_hasLine hg)
      · rintro ⟨htype, -⟩
        rw [HasLine, ← htype] at hg
        exact hf hg
    · rw [(format_of_not_hasLine hf).2 hg]
      constructor
      · intro htype
        exact ⟨htype, fun hline => absurd hline hf, fun hdata => absurd (.inl hdata) hf⟩
      · exact fun h => h.1

/-- A calendar that is right at the beginning of time. -/
def epoch (s : Int32) : List UInt8 :=
  if s = 0 then ascii "1970-01-01 00:00:00" else formatInt 1 s.toInt

theorem epoch_injective : Function.Injective epoch := by
  have hother : ∀ n : Int, ascii "1970-01-01 00:00:00" ≠ formatInt 1 n := by
    intro n h
    have hblank : (0x20 : UInt8) ∈ formatInt 1 n := h ▸ (by decide)
    rcases mem_formatInt hblank with h | h
    · exact absurd h (by decide)
    · exact absurd h (by decide)
  intro s t h
  rw [epoch, epoch] at h
  split_ifs at h with hs ht ht
  · rw [hs, ht]
  · exact absurd h (hother _)
  · exact absurd h.symm (hother _)
  · exact Int32.toInt_inj.mp (formatInt_inj h)

theorem epoch_plain (s : Int32) : 0x78 ∉ epoch s := by
  intro h
  rw [epoch] at h
  split_ifs at h
  · exact absurd h (by decide)
  · rcases mem_formatInt h with h | h
    · exact absurd h (by decide)
    · exact absurd h (by decide)

/-- Two frames that differ in the flag for extended identifiers. -/
theorem format_eq_iff_extended :
    let f := ofData 0x123 [0xDE, 0xAD]
    let g := f.setExtendedId true
    f.format epoch = g.format epoch ↔ f.frameType = g.frameType ∧
      (f.HasLine → (f.timestamp.seconds.toInt32 = g.timestamp.seconds.toInt32 ∧
          f.timestamp.nanoseconds = g.timestamp.nanoseconds) ∧
        (f.id = g.id ∧ (f.isExtendedId = g.isExtendedId ∨ 2 ^ 28 ≤ f.id.toNat)) ∧
        f.payload.length = g.payload.length) ∧
      (f.frameType = .dataFrame → f.payload = g.payload) :=
  format_eq_iff epoch_injective epoch_plain (ofData 0x123 [0xDE, 0xAD])
    ((ofData 0x123 [0xDE, 0xAD]).setExtendedId true)

/-- What the first of them looks like. -/
example : (ofData 0x123 [0xDE, 0xAD]).format epoch =
    ascii "1970-01-01 00:00:00.000000000 0x123  [2] DE AD" := by decide

end DPFlow.CanFrame
