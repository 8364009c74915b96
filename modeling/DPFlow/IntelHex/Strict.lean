import DPFlow.IntelHex.Record

/-!
# The strict parser reads exactly the reference

A colon brings the parser to one state from anywhere, so what a segment delivers
depends on its own digits only; a complete record leaves the strict parser waiting,
where further digits change nothing. Cutting the input at its colons therefore cuts
the callback trace as well.
-/
namespace DPFlow.IntelHex

open Lib
variable {σ : Type}

/-- A waiting parser takes no notice of digits. -/
theorem wait_run (callback : Callback σ) (r : Record) (pos pending : UInt8) (strict : Bool) (w : σ)
    (ds : List UInt8) :
    (digitMachine callback).state (⟨.readWait, r, pos, pending, strict⟩, w) ds =
        (⟨.readWait, r, pos, pending, strict⟩, w) ∧
      (digitMachine callback).trace (⟨.readWait, r, pos, pending, strict⟩, w) ds = [] := by
  induction ds with
  | nil => exact ⟨rfl, rfl⟩
  | cons d ds ih => simpa [digitMachine, parseDigit] using ih

/-! ## The positional reading of a record's digits -/

theorem byteAt_spell (surplus : List UInt8) : ∀ (ps : List (UInt8 × UInt8)) (k : ℕ)
    (hk : k < ps.length), byteAt (spell ps ++ surplus) k = byteOf ps[k]
  | p :: ps, 0, _ => rfl
  | p :: ps, k + 1, hk => by
      have ih := byteAt_spell surplus ps k (by simpa using hk)
      have h0 : 2 * (k + 1) = 2 * k + 1 + 1 := by omega
      simpa [byteAt, h0] using ih

/-- Enough digits in front spell the record the parser delivers after a colon. -/
theorem recordOf_spell (n msb lsb type ck : UInt8 × UInt8) (ds : List (UInt8 × UInt8))
    (r : Record) (surplus : List UInt8) (hlen : ds.length = (byteOf n).toNat) :
    let record := delivered r.clear n msb lsb type ck ds
    recordOf (spell (n :: msb :: lsb :: type :: ds ++ [ck]) ++ surplus) =
      some ⟨record, checksum record⟩ := by
  intro record
  obtain ⟨ps, hps⟩ : ∃ ps, ps = n :: msb :: lsb :: type :: ds ++ [ck] := ⟨_, rfl⟩
  obtain ⟨D, hD⟩ : ∃ D, D = spell ps ++ surplus := ⟨_, rfl⟩
  have hlength : ps.length = (byteOf n).toNat + 5 := by simp [hps, hlen]
  have hbyte : ∀ k (hk : k < ps.length), byteAt D k = byteOf ps[k] := by
    intro k hk
    rw [hD, byteAt_spell surplus ps k hk]
  have h0 : byteAt D 0 = byteOf n := by rw [hbyte 0 (by omega)]; simp [hps]
  have h1 : byteAt D 1 = byteOf msb := by rw [hbyte 1 (by omega)]; simp [hps]
  have h2 : byteAt D 2 = byteOf lsb := by rw [hbyte 2 (by omega)]; simp [hps]
  have h3 : byteAt D 3 = byteOf type := by rw [hbyte 3 (by omega)]; simp [hps]
  have hck : byteAt D ((byteOf n).toNat + 4) = byteOf ck := by
    rw [hbyte _ (by omega)]
    simp [hps, ← hlen]
  have hdata : (List.range (byteOf n).toNat).map (fun i => byteAt D (i + 4)) = ds.map byteOf := by
    apply List.ext_getElem
    · simp [hlen]
    · intro i hi hi'
      have hi'' : i < ds.length := by simpa using hi'
      simp only [List.getElem_map, List.getElem_range]
      rw [hbyte (i + 4) (by omega)]
      simp [hps, List.getElem_append_left hi'']
  have hsum : ((List.range ((byteOf n).toNat + 4)).map (byteAt D)).sum =
      byteOf n + (byteOf msb + (byteOf lsb + (byteOf type + (ds.map byteOf).sum))) := by
    rw [← hdata]
    simp [List.range_succ_eq_map, h0, h1, h2, h3, Function.comp_def]
  have hrecord : checksum record =
      -(byteOf n + byteOf msb + byteOf lsb + byteOf type + (ds.map byteOf).sum) := by
    rw [checksum_eq record (by simp [record, delivered, recordAfter, Record.clear, hlen])]
    simp [record, delivered, recordAfter, Record.clear, ← hlen, List.take_of_length_le]
  have hfit : 2 * ((byteOf n).toNat + 5) ≤ D.length := by
    rw [hD, List.length_append, length_spell, hlength]
    omega
  rw [← hps, ← hD, recordOf, h0, if_pos hfit, hsum, hrecord, hck, hdata, h1, h2, h3]
  simp [record, delivered, recordAfter, Record.clear, addressOf, UInt8.add_assoc]

/-- Digits of exactly the length their first byte calls for are those of a record. -/
theorem exists_record (ds : List UInt8) (h : ds.length = 2 * ((byteAt ds 0).toNat + 5)) :
    ∃ n msb lsb type ck : UInt8 × UInt8, ∃ body : List (UInt8 × UInt8),
      body.length = (byteOf n).toNat ∧ ds = spell (n :: msb :: lsb :: type :: body ++ [ck]) := by
  obtain ⟨ps, hps, rfl⟩ := exists_spell _ ds h
  match ps with
  | n :: msb :: lsb :: type :: p :: ps =>
      have hn : byteAt (spell (n :: msb :: lsb :: type :: p :: ps)) 0 = byteOf n := rfl
      rw [hn] at hps
      refine ⟨n, msb, lsb, type, (p :: ps).getLast (by simp), (p :: ps).dropLast, ?_, ?_⟩
      · simp only [List.length_cons] at hps
        simp only [List.length_dropLast, List.length_cons]
        omega
      · rw [List.cons_append, List.cons_append, List.cons_append, List.cons_append,
          List.dropLast_append_getLast]

/-- Digits that hold a record begin with one. -/
theorem exists_record_append (ds : List UInt8)
    (h : 2 * ((byteAt ds 0).toNat + 5) ≤ ds.length) :
    ∃ n msb lsb type ck : UInt8 × UInt8, ∃ body : List (UInt8 × UInt8),
      body.length = (byteOf n).toNat ∧
      ds = spell (n :: msb :: lsb :: type :: body ++ [ck]) ++
        ds.drop (2 * ((byteAt ds 0).toNat + 5)) := by
  set need := 2 * ((byteAt ds 0).toNat + 5) with hneed
  have htake : byteAt (ds.take need) 0 = byteAt ds 0 := by
    have hget : ∀ i < need, (ds.take need).getD i 0 = ds.getD i 0 := by
      intro i hi
      simp [List.getElem?_take_of_lt hi]
    rw [byteAt, byteAt, hget _ (by omega), hget _ (by omega)]
  obtain ⟨n, msb, lsb, type, ck, body, hbody, hspell⟩ :=
    exists_record (ds.take need) (by rw [htake, List.length_take]; omega)
  refine ⟨n, msb, lsb, type, ck, body, hbody, ?_⟩
  rw [← hspell, List.take_append_drop]

/-- Padding digits with zeros does not change a byte. -/
theorem byteAt_append_replicate (ds : List UInt8) (m k : ℕ) :
    byteAt (ds ++ List.replicate m 0) k = byteAt ds k := by
  have hget : ∀ i, (ds ++ List.replicate m 0).getD i 0 = ds.getD i 0 := by
    intro i
    simp only [List.getD, List.getElem?_append, List.getElem?_replicate]
    split
    · rfl
    · rw [List.getElem?_eq_none (by omega)]
      split <;> rfl
  simp only [byteAt, hget]

/-- Digits that hold no record deliver nothing. -/
theorem short_silent (callback : Callback σ) (strict : Bool) (w : σ) (r : Record)
    (pos pending : UInt8) (ds : List UInt8) (h : ds.length < 2 * ((byteAt ds 0).toNat + 5)) :
    (digitMachine callback).trace (⟨.readCountHigh, r, pos, pending, strict⟩, w) ds = [] := by
  set need := 2 * ((byteAt ds 0).toNat + 5) with hneed
  have hpad : byteAt (ds ++ List.replicate (need - ds.length) 0) 0 = byteAt ds 0 :=
    byteAt_append_replicate ds _ 0
  obtain ⟨n, msb, lsb, type, ck, body, hbody, hspell⟩ :=
    exists_record (ds ++ List.replicate (need - ds.length) 0)
      (by rw [hpad, List.length_append, List.length_replicate]; omega)
  -- they are a proper prefix of a record
  have hprefix : ds <+: spell (n :: msb :: lsb :: type :: body) ++ [ck.1] := by
    have hlen := congrArg List.length hspell
    simp only [List.length_append, List.length_replicate, length_spell] at hlen
    have hwhole : ds <+: spell (n :: msb :: lsb :: type :: body ++ [ck]) := ⟨_, hspell⟩
    have hpart : spell (n :: msb :: lsb :: type :: body) ++ [ck.1] <+:
        spell (n :: msb :: lsb :: type :: body ++ [ck]) := ⟨[ck.2], by simp⟩
    refine List.prefix_of_prefix_length_le hwhole hpart ?_
    simp only [List.length_append, length_spell, List.length_cons, List.length_nil] at hlen ⊢
    omega
  exact Mealy.trace_prefix_eq_nil _
    (record_silent callback strict w r pos pending n msb lsb type body ck.1 hbody) hprefix

/-- The digits do not go on behind the record that their first byte calls for. -/
def Stops (ds : List UInt8) : Prop := ds.length ≤ 2 * ((byteAt ds 0).toNat + 5)

/-- Behind a colon, the strict parser delivers what the segment's digits spell; so does the
other one when the digits stop with their record. -/
theorem segment_trace (callback : Callback σ) (r : Record) (pos pending : UInt8) (strict : Bool)
    (w : σ) (ds : List UInt8) (hstop : strict = false → Stops ds) :
    (digitMachine callback).trace (⟨.readCountHigh, r.clear, pos, pending, strict⟩, w) ds =
      (recordOf ds).toList := by
  by_cases hfit : 2 * ((byteAt ds 0).toNat + 5) ≤ ds.length
  · -- Enough digits: a record, then surplus, if any, read while waiting.
    obtain ⟨n, msb, lsb, type, ck, body, hbody, hspell⟩ := exists_record_append ds hfit
    obtain ⟨surplus, hsurplus⟩ : ∃ surplus, surplus = ds.drop (2 * ((byteAt ds 0).toNat + 5)) :=
      ⟨_, rfl⟩
    rw [← hsurplus] at hspell
    have hrecord := recordOf_spell n msb lsb type ck body r surplus hbody
    rw [← hspell] at hrecord
    rw [hrecord, hspell]
    obtain ⟨pos', pending', hstate, htrace⟩ :=
      record_run callback strict w r.clear pos pending n msb lsb type ck body hbody
    rw [Mealy.trace_append, htrace, hstate]
    cases strict with
    | true => simpa using (wait_run callback _ pos' pending' true _ surplus).2
    | false =>
        have hnone : surplus = [] := hsurplus.trans (List.drop_eq_nil_of_le (hstop rfl))
        rw [hnone]
        rfl
  · rw [recordOf, if_neg hfit]
    exact short_silent callback strict w r.clear pos pending ds (not_le.mp hfit)

/-! ## Whole texts -/

@[simp] theorem mStrict_parseDigit (callback : Callback σ) (st : IntelHex × σ) (b : UInt8) :
    (parseDigit callback st b).1.1.mStrict = st.1.mStrict := by
  simp only [parseDigit]
  split <;> rfl

theorem mStrict_digitMachine (callback : Callback σ) (st : IntelHex × σ) (ds : List UInt8) :
    ((digitMachine callback).state st ds).1.mStrict = st.1.mStrict := by
  refine (digitMachine callback).state_induction (fun t => t.1.mStrict = st.1.mStrict) st ds rfl ?_
  intro t d _ ht
  exact (mStrict_parseDigit callback t d).trans ht

/-- From any strict state: the digits before the first colon go on from that state,
and every later segment delivers what its own digits spell. From any other state too, when
the digits of every later segment stop with their record. -/
theorem trace_splitOn (callback : Callback σ) (text : List UInt8) :
    ∀ st : IntelHex × σ, (st.1.mStrict = false →
        ∀ segment ∈ (text.splitOn 0x3A).tail, Stops (segment.filterMap hexValue)) →
      calls callback st text =
        (digitMachine callback).trace st (((text.splitOn 0x3A).headD []).filterMap hexValue) ++
          reference text := by
  induction text with
  | nil => intro st _; rfl
  | cons c text ih =>
      intro st hstop
      obtain ⟨segment, segments, hsplit⟩ : ∃ a b, text.splitOn 0x3A = a :: b :=
        List.exists_cons_of_ne_nil (List.splitOn_ne_nil _ _)
      have href : reference text =
          segments.filterMap fun segment => recordOf (segment.filterMap hexValue) := by
        rw [reference, hsplit, List.tail_cons]
      by_cases hc : c = 0x3A
      · subst hc
        have hsplit' : (0x3A :: text).splitOn 0x3A = [] :: segment :: segments := by
          simp [List.splitOn_cons_eq_if_modifyHead, hsplit]
        rw [hsplit', List.tail_cons] at hstop
        have hlater : st.1.mStrict = false → ∀ segment ∈ (text.splitOn 0x3A).tail,
            Stops (segment.filterMap hexValue) := by
          intro hst later hmem
          rw [hsplit, List.tail_cons] at hmem
          exact hstop hst later (List.mem_cons_of_mem _ hmem)
        have hsegment := segment_trace callback st.1.mRec 0 0 st.1.mStrict st.2
          (segment.filterMap hexValue) fun hst => hstop hst segment List.mem_cons_self
        rw [calls_cons_colon, ih (restart st.1, st.2) hlater, href, hsplit, reference, hsplit']
        simp only [restart, List.headD_cons, hsegment, List.filterMap_nil,
          Mealy.trace_nil, List.nil_append, List.tail_cons, List.filterMap_cons]
        cases recordOf (segment.filterMap hexValue) <;> rfl
      · have hsplit' : (c :: text).splitOn 0x3A = (c :: segment) :: segments := by
          simp [List.splitOn_cons_eq_if_modifyHead, hsplit, hc]
        have hdigits : (c :: segment).filterMap hexValue =
            (hexValue c).toList ++ segment.filterMap hexValue := by
          rw [List.filterMap_cons]
          cases hexValue c <;> rfl
        have hlater : ((digitMachine callback).state st (hexValue c).toList).1.mStrict = false →
            ∀ segment ∈ (text.splitOn 0x3A).tail, Stops (segment.filterMap hexValue) := by
          intro hst
          rw [mStrict_digitMachine] at hst
          rw [hsplit'] at hstop
          rw [hsplit]
          exact hstop hst
        rw [calls_cons_of_ne_colon callback st hc, ih _ hlater, href, hsplit, reference, hsplit']
        simp only [List.headD_cons, List.tail_cons, hdigits, Mealy.trace_append, List.append_assoc]

/-- A new parser waits for the first colon, and reads the reference from there. -/
theorem calls_init (callback : Callback σ) (strict : Bool) (w : σ) (text : List UInt8)
    (hstop : strict = false →
      ∀ segment ∈ (text.splitOn 0x3A).tail, Stops (segment.filterMap hexValue)) :
    calls callback (init strict, w) text = reference text := by
  have hwait := (wait_run callback (init strict).mRec 0 0 strict w
    (((text.splitOn 0x3A).headD []).filterMap hexValue)).2
  have h := trace_splitOn callback text (init strict, w) hstop
  rw [show init strict = ⟨.readWait, (init strict).mRec, 0, 0, strict⟩ from rfl] at h ⊢
  rw [h, hwait, List.nil_append]

/-- **The strict parser invokes its callback exactly as the reference says**, on
every text and for every callback, including one that rewrites the record. -/
theorem calls_eq_reference (callback : Callback σ) (w : σ) (text : List UInt8) :
    calls callback (init true, w) text = reference text :=
  calls_init callback true w text (nomatch ·)

end DPFlow.IntelHex
