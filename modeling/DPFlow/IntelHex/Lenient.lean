import DPFlow.IntelHex.StartCode

/-!
# The lenient parser reads a reference too

Behind a record, a parser that is not strict reads the next one at once, so a segment of the
text is cut into records, each as long as its first byte says. What is not cleared in between
is the record itself: the data bytes that the callback leaves in it stay in front of those of
the next record, and the checksum loop adds up the first ones it finds. The reading below is
positional, as the one for the strict parser is, and carries those data bytes along.

## Main definitions

* `IntelHex.records` — the digits of a segment, cut into those of its records.
* `IntelHex.callBehind` — what a record's digits call for, behind data bytes that were left.
* `IntelHex.delivery`, `IntelHex.lenientReference` — the records of a segment, and of a text.
-/
namespace DPFlow.IntelHex

open Lib
variable {σ : Type}

/-! ## The reference -/

/-- How many digits the record has that these begin with. -/
def need (ds : List UInt8) : ℕ := 2 * ((byteAt ds 0).toNat + 5)

/-- The digits of a segment, cut into those of its records; the last ones may not be enough
for another. -/
def records (ds : List UInt8) : List (List UInt8) :=
  if need ds ≤ ds.length then ds.take (need ds) :: records (ds.drop (need ds)) else []
termination_by ds.length
decreasing_by
  rw [List.length_drop]
  unfold need at *
  omega

/-- The invocation that a record's digits call for, when `held` is left in the data vector. The
sum is that of the four bytes in front, and of as many bytes of the vector as the record has. -/
def callBehind (held ds : List UInt8) : Call :=
  let n := (byteAt ds 0).toNat
  let data := held ++ (List.range n).map fun i => byteAt ds (i + 4)
  { record :=
      { length := byteAt ds 0
        address := 256 * (byteAt ds 1).toUInt16 + (byteAt ds 2).toUInt16
        type := .ofByte (byteAt ds 3)
        data := data
        checksum := byteAt ds (n + 4) }
    sum := -(byteAt ds 0 + byteAt ds 1 + byteAt ds 2 + byteAt ds 3 + (data.take n).sum) }

/-- The records of a segment, in order: what the callback leaves of one record's data is held
for the next. -/
def delivery (callback : Callback σ) : Mealy (List UInt8 × σ) (List UInt8) Call where
  step st ds :=
    let call := callBehind st.1 ds
    let (left, w) := callback call.record call.sum st.2
    ((left.data, w), [call])

/-- The segments of a text, where nothing is held at first. -/
def lenientMachine (callback : Callback σ) : Mealy σ (List UInt8) Call where
  step w ds :=
    (((delivery callback).state ([], w) (records ds)).2,
      (delivery callback).trace ([], w) (records ds))

/-- The digits of the segments behind the colons. -/
def segments (text : List UInt8) : List (List UInt8) :=
  (text.splitOn 0x3A).tail.map fun segment => segment.filterMap hexValue

/-- Drop what stands before the first colon, cut the rest at every colon, and read the records
of each segment. -/
def lenientReference (callback : Callback σ) (w : σ) (text : List UInt8) : List Call :=
  (lenientMachine callback).trace w (segments text)

/-! ## One segment -/

theorem need_spell (n msb lsb type ck : UInt8 × UInt8) {body : List (UInt8 × UInt8)}
    (hbody : body.length = (byteOf n).toNat) :
    (spell (n :: msb :: lsb :: type :: body ++ [ck])).length =
      need (spell (n :: msb :: lsb :: type :: body ++ [ck])) := by
  have hfirst : byteAt (spell (n :: msb :: lsb :: type :: body ++ [ck])) 0 = byteOf n := rfl
  rw [need, hfirst, length_spell]
  simp [hbody]

theorem records_append (n msb lsb type ck : UInt8 × UInt8) {body : List (UInt8 × UInt8)}
    (hbody : body.length = (byteOf n).toNat) (rest : List UInt8) :
    records (spell (n :: msb :: lsb :: type :: body ++ [ck]) ++ rest) =
      spell (n :: msb :: lsb :: type :: body ++ [ck]) :: records rest := by
  have hneed := need_spell n msb lsb type ck hbody
  obtain ⟨ds, hds⟩ : ∃ ds, ds = spell (n :: msb :: lsb :: type :: body ++ [ck]) := ⟨_, rfl⟩
  have hsame : need (ds ++ rest) = ds.length := by
    rw [hds, hneed]
    rfl
  rw [← hds, records, if_pos (by rw [hsame, List.length_append]; omega), hsame,
    List.take_left, List.drop_left]

/-- The parser delivers what the digits call for. -/
theorem delivered_eq_callBehind (r : Record) (n msb lsb type ck : UInt8 × UInt8)
    {body : List (UInt8 × UInt8)} (hbody : body.length = (byteOf n).toNat) :
    (⟨delivered r n msb lsb type ck body, checksum (delivered r n msb lsb type ck body)⟩ : Call) =
      callBehind r.data (spell (n :: msb :: lsb :: type :: body ++ [ck])) := by
  obtain ⟨ds, hds⟩ : ∃ ds, ds = spell (n :: msb :: lsb :: type :: body ++ [ck]) := ⟨_, rfl⟩
  have hfit : 2 * ((byteAt ds 0).toNat + 5) ≤ ds.length := by
    rw [hds]
    exact (need_spell n msb lsb type ck hbody).ge
  have h0 : byteAt ds 0 = byteOf n := by rw [hds]; rfl
  have h1 : byteAt ds 1 = byteOf msb := by rw [hds]; rfl
  have h2 : byteAt ds 2 = byteOf lsb := by rw [hds]; rfl
  have h3 : byteAt ds 3 = byteOf type := by rw [hds]; rfl
  -- the strict reference reads the same record from an empty vector
  have hstrict := recordOf_spell n msb lsb type ck body r [] hbody
  rw [List.append_nil, ← hds, recordOf, if_pos hfit] at hstrict
  have hrecord := congrArg Call.record (Option.some.inj hstrict)
  have hdata := congrArg Record.data hrecord
  have hck := congrArg Record.checksum hrecord
  simp only [delivered, recordAfter, Record.clear, List.nil_append, h0] at hdata hck
  have hlen : (delivered r n msb lsb type ck body).length.toNat ≤
      (delivered r n msb lsb type ck body).data.length := by
    simp [delivered, recordAfter, hbody]
  have haddress : 256 * (byteOf msb).toUInt16 + (byteOf lsb).toUInt16 =
      addressOf (byteOf msb) (byteOf lsb) := rfl
  rw [← hds, callBehind, checksum_eq _ hlen]
  simp only [h0, h1, h2, h3, hdata, hck, haddress]
  simp [delivered, recordAfter]

/-- Digits that deliver nothing leave the callback's state alone. -/
theorem callback_state_of_silent (callback : Callback σ) {st : IntelHex × σ} {ds : List UInt8}
    (h : (digitMachine callback).trace st ds = []) :
    ((digitMachine callback).state st ds).2 = st.2 := by
  induction ds generalizing st with
  | nil => rfl
  | cons d ds ih =>
      obtain ⟨hstep, hlater⟩ := List.append_eq_nil_iff.mp h
      rw [Mealy.state_cons, ih hlater]
      simp only [digitMachine, parseDigit] at hstep ⊢
      split at hstep <;> first | rfl | cases hstep

/-- **A segment, from the first digit of a record on**: what it delivers, and what is left of
the callback's state. -/
theorem segment_delivery (callback : Callback σ) (ds : List UInt8) (r : Record)
    (pos pending : UInt8) (w : σ) :
    let st : IntelHex × σ := (⟨.readCountHigh, r, pos, pending, false⟩, w)
    (digitMachine callback).trace st ds = (delivery callback).trace (r.data, w) (records ds) ∧
    ((digitMachine callback).state st ds).2 =
      ((delivery callback).state (r.data, w) (records ds)).2 := by
  induction ds using records.induct generalizing r pos pending w with
  | case1 ds hfit ih =>
      obtain ⟨n, msb, lsb, type, ck, body, hbody, hspell⟩ := exists_record_append ds hfit
      obtain ⟨pos', pending', hstate, htrace⟩ :=
        record_run callback false w r pos pending n msb lsb type ck body hbody
      have hcall := delivered_eq_callBehind r n msb lsb type ck hbody
      obtain ⟨after, hafter⟩ : ∃ after, after = callback (delivered r n msb lsb type ck body)
        (checksum (delivered r n msb lsb type ck body)) w := ⟨_, rfl⟩
      obtain ⟨rest, hrest⟩ : ∃ rest, rest = ds.drop (need ds) := ⟨_, rfl⟩
      have hrecords := records_append n msb lsb type ck hbody rest
      obtain ⟨digits, hdigits⟩ : ∃ digits,
        digits = spell (n :: msb :: lsb :: type :: body ++ [ck]) := ⟨_, rfl⟩
      rw [← hdigits] at hspell hcall hstate htrace hrecords
      rw [← hafter] at hstate
      have hstep : (delivery callback).step (r.data, w) digits =
          ((after.1.data, after.2), [callBehind r.data digits]) := by
        rw [hafter]
        simp only [delivery, ← hcall]
      change ds = digits ++ ds.drop (need ds) at hspell
      rw [← hrest] at hspell ih
      obtain ⟨hlater, hleft⟩ := ih after.1 pos' pending' after.2
      intro st
      rw [hspell, hrecords, Mealy.trace_append, Mealy.state_append, htrace, hstate,
        Mealy.trace_cons, Mealy.state_cons, hstep, ← hcall]
      exact ⟨congrArg _ hlater, hleft⟩
  | case2 ds hshort =>
      have hsilent := short_silent callback false w r pos pending ds (not_le.mp hshort)
      rw [records, if_neg hshort]
      exact ⟨hsilent, callback_state_of_silent callback hsilent⟩

/-! ## Whole texts -/

/-- The digits ahead of the first colon. -/
def ahead (text : List UInt8) : List UInt8 := ((text.splitOn 0x3A).headD []).filterMap hexValue

theorem segments_cons_colon (text : List UInt8) :
    ahead (0x3A :: text) = [] ∧ segments (0x3A :: text) = ahead text :: segments text := by
  obtain ⟨segment, later, hsplit⟩ : ∃ a b, text.splitOn 0x3A = a :: b :=
    List.exists_cons_of_ne_nil (List.splitOn_ne_nil _ _)
  have hsplit' : (0x3A :: text).splitOn 0x3A = [] :: segment :: later := by
    simp [List.splitOn_cons_eq_if_modifyHead, hsplit]
  rw [ahead, ahead, segments, segments, hsplit, hsplit']
  exact ⟨rfl, rfl⟩

theorem segments_cons_of_ne {c : UInt8} (hc : c ≠ 0x3A) (text : List UInt8) :
    ahead (c :: text) = (hexValue c).toList ++ ahead text ∧
      segments (c :: text) = segments text := by
  obtain ⟨segment, later, hsplit⟩ : ∃ a b, text.splitOn 0x3A = a :: b :=
    List.exists_cons_of_ne_nil (List.splitOn_ne_nil _ _)
  have hsplit' : (c :: text).splitOn 0x3A = (c :: segment) :: later := by
    simp [List.splitOn_cons_eq_if_modifyHead, hsplit, hc]
  rw [ahead, ahead, segments, segments, hsplit, hsplit']
  refine ⟨?_, rfl⟩
  rw [List.headD_cons, List.headD_cons, List.filterMap_cons]
  cases hexValue c <;> rfl

/-- From any state the digits ahead of the first colon go on from that state. -/
theorem calls_lenient (callback : Callback σ) (text : List UInt8) (st : IntelHex × σ)
    (hstrict : st.1.mStrict = false) :
    calls callback st text = (digitMachine callback).trace st (ahead text) ++
      lenientReference callback ((digitMachine callback).state st (ahead text)).2 text := by
  induction text generalizing st with
  | nil => rfl
  | cons c text ih =>
      by_cases hc : c = 0x3A
      · subst hc
        obtain ⟨hahead, hsegments⟩ := segments_cons_colon text
        obtain ⟨htrace, hstate⟩ := segment_delivery callback (ahead text) st.1.mRec.clear 0 0 st.2
        have hrestart : restart st.1 = ⟨.readCountHigh, st.1.mRec.clear, 0, 0, false⟩ := by
          rw [restart, hstrict]
        rw [calls_cons_colon, ih (restart st.1, st.2) hstrict, hrestart, htrace, hstate, hahead,
          lenientReference, lenientReference, hsegments]
        rfl
      · obtain ⟨hahead, hsegments⟩ := segments_cons_of_ne hc text
        have hstrict' := (mStrict_digitMachine callback st (hexValue c).toList).trans hstrict
        rw [calls_cons_of_ne_colon callback st hc, ih _ hstrict', hahead, Mealy.trace_append,
          Mealy.state_append, List.append_assoc, lenientReference, lenientReference, hsegments]

/-! ## Callbacks that take the data -/

/-- The records of a text, each read by itself. -/
def recordsOf (text : List UInt8) : List Call :=
  (segments text).flatMap fun ds => (records ds).filterMap recordOf

/-- A record read by itself has nothing in front of its data. -/
theorem recordOf_spell_eq (n msb lsb type ck : UInt8 × UInt8) {body : List (UInt8 × UInt8)}
    (hbody : body.length = (byteOf n).toNat) (rest : List UInt8) :
    recordOf (spell (n :: msb :: lsb :: type :: body ++ [ck]) ++ rest) =
      some (callBehind [] (spell (n :: msb :: lsb :: type :: body ++ [ck]))) := by
  rw [recordOf_spell n msb lsb type ck body (init false).mRec rest hbody]
  exact congrArg some (delivered_eq_callBehind (init false).mRec.clear n msb lsb type ck hbody)

/-- Digits that hold a record begin with those of one, and it is the one that is read. -/
theorem exists_of_recordOf {ds : List UInt8} {call : Call} (h : recordOf ds = some call) :
    ∃ digits rest, ds = digits ++ rest ∧ call = callBehind [] digits ∧
      (∀ more, recordOf (digits ++ more) = some call) ∧
      ∀ more, records (digits ++ more) = digits :: records more := by
  have hfit : 2 * ((byteAt ds 0).toNat + 5) ≤ ds.length := by
    by_contra hshort
    rw [recordOf, if_neg hshort] at h
    cases h
  obtain ⟨n, msb, lsb, type, ck, body, hbody, hspell⟩ := exists_record_append ds hfit
  have hread := recordOf_spell_eq n msb lsb type ck hbody
  rw [hspell, hread] at h
  obtain rfl := Option.some.inj h
  exact ⟨_, _, hspell, rfl, hread, records_append n msb lsb type ck hbody⟩

/-- Every record of a segment reads as one. -/
theorem recordOf_of_mem_records {ds chunk : List UInt8} (h : chunk ∈ records ds) :
    recordOf chunk = some (callBehind [] chunk) ∧ chunk ⊆ ds := by
  induction ds using records.induct with
  | case1 ds hfit ih =>
      rw [records, if_pos hfit] at h
      rcases List.mem_cons.mp h with rfl | hmem
      · obtain ⟨n, msb, lsb, type, ck, body, hbody, hspell⟩ := exists_record_append ds hfit
        have hwhole := ds.take_append_drop (need ds)
        have htake : ds.take (need ds) = spell (n :: msb :: lsb :: type :: body ++ [ck]) :=
          List.append_cancel_right (hwhole.trans hspell)
        have hread := recordOf_spell_eq n msb lsb type ck hbody []
        rw [List.append_nil, ← htake] at hread
        exact ⟨hread, List.take_subset _ _⟩
      · obtain ⟨hread, hsub⟩ := ih hmem
        exact ⟨hread, List.Subset.trans hsub (List.drop_subset _ _)⟩
  | case2 ds hshort =>
      rw [records, if_neg hshort] at h
      cases h

/-- Digits of a text are those of one without colons. -/
theorem exists_text {ds : List UInt8} (h : ∀ d ∈ ds, ∃ c, hexValue c = some d) :
    ∃ text : List UInt8, text.filterMap hexValue = ds ∧ 0x3A ∉ text := by
  induction ds with
  | nil => exact ⟨[], rfl, List.not_mem_nil⟩
  | cons d ds ih =>
      obtain ⟨c, hc⟩ := h d List.mem_cons_self
      obtain ⟨text, htext, hcolon⟩ := ih fun d hd => h d (List.mem_cons_of_mem _ hd)
      refine ⟨c :: text, by rw [List.filterMap_cons, hc, htext], ?_⟩
      rw [List.mem_cons, not_or]
      refine ⟨?_, hcolon⟩
      rintro rfl
      cases hc

/-- If the callback empties the data vector, the records of a segment come out as written. -/
theorem trace_delivery (callback : Callback σ) {chunks : List (List UInt8)}
    (hread : ∀ chunk ∈ chunks, recordOf chunk = some (callBehind [] chunk))
    (hempty : ∀ chunk ∈ chunks, ∀ w,
      (callback (callBehind [] chunk).record (callBehind [] chunk).sum w).1.data = []) (w : σ) :
    (delivery callback).trace ([], w) chunks = chunks.filterMap recordOf := by
  induction chunks generalizing w with
  | nil => rfl
  | cons chunk chunks ih =>
      rw [List.forall_mem_cons] at hread hempty
      rw [Mealy.trace_cons, List.filterMap_cons, hread.1]
      simp only [delivery, hempty.1 w]
      exact congrArg _ (ih hread.2 hempty.2 _)

/-- The callback empties the data vector of every record that a text can have it get. -/
def EmptiesData (callback : Callback σ) : Prop :=
  ∀ (w : σ) (text : List UInt8) (call : Call), recordOf (text.filterMap hexValue) = some call →
    (callback call.record call.sum w).1.data = []

/-- Ten zeros are the digits of a record without data. -/
theorem zeros_record : ∃ zeros : List UInt8, zeros = List.replicate 10 0 ∧
    records zeros = [zeros] ∧ recordOf zeros = some (callBehind [] zeros) ∧
    ∀ held, (callBehind held zeros).record.data = held := by
  have hnil : records [] = [] := by
    rw [records, if_neg (by decide)]
  have hbody : ([] : List (UInt8 × UInt8)).length = (byteOf (0, 0)).toNat := rfl
  have hrecords := records_append (0, 0) (0, 0) (0, 0) (0, 0) (0, 0) hbody []
  have hread := recordOf_spell_eq (0, 0) (0, 0) (0, 0) (0, 0) (0, 0) hbody []
  rw [hnil] at hrecords
  exact ⟨_, rfl, hrecords, hread, List.append_nil⟩

/-- Data that is left shows up in the next record. -/
theorem EmptiesData.of_lenientReference {callback : Callback σ}
    (hall : ∀ w text, lenientReference callback w text = recordsOf text) :
    EmptiesData callback := by
  intro w text call hcall
  obtain ⟨digits, rest, hdigits, rfl, hread, hrecords⟩ := exists_of_recordOf hcall
  obtain ⟨zeros, hzeros, hrecord, hzero, hheld⟩ := zeros_record
  -- the record, and behind it one without data
  obtain ⟨t, ht, hcolon⟩ : ∃ t : List UInt8,
      t.filterMap hexValue = digits ++ zeros ∧ 0x3A ∉ t := by
    refine exists_text ?_
    intro d hd
    rcases List.mem_append.mp hd with hmem | hmem
    · have hmem' : d ∈ text.filterMap hexValue := by
        rw [hdigits]
        exact List.mem_append_left _ hmem
      obtain ⟨c, -, hc⟩ := List.mem_filterMap.mp hmem'
      exact ⟨c, hc⟩
    · rw [hzeros] at hmem
      rw [List.eq_of_mem_replicate hmem]
      exact ⟨0x30, rfl⟩
  have hsegments : segments (0x3A :: t) = [digits ++ zeros] := by
    rw [(segments_cons_colon t).2, ahead, segments, List.splitOn_eq_singleton hcolon,
      List.headD_cons, ht]
    rfl
  have halone := hread []
  rw [List.append_nil] at halone
  have hboth := hall w (0x3A :: t)
  rw [lenientReference, recordsOf, hsegments, Mealy.trace_cons, List.flatMap_cons, hrecords,
    hrecord, List.filterMap_cons, halone, List.filterMap_cons, hzero] at hboth
  simp only [lenientMachine, hrecords, hrecord] at hboth
  have hsecond := (List.cons.inj (List.cons.inj hboth).2).1
  have hdata := congrArg (fun c : Call => c.record.data) hsecond
  rw [hheld, hheld] at hdata
  exact hdata

/-- Without it every record is read as it stands. -/
theorem EmptiesData.lenientReference_eq {callback : Callback σ} (h : EmptiesData callback) (w : σ)
    (text : List UInt8) : lenientReference callback w text = recordsOf text := by
  have hsegment : ∀ ds ∈ segments text, ∀ w,
      (delivery callback).trace ([], w) (records ds) = (records ds).filterMap recordOf := by
    intro ds hds w
    obtain ⟨segment, -, rfl⟩ := List.mem_map.mp hds
    refine trace_delivery callback (fun chunk hchunk => (recordOf_of_mem_records hchunk).1) ?_ w
    intro chunk hchunk w
    obtain ⟨hread, hsub⟩ := recordOf_of_mem_records hchunk
    obtain ⟨t, ht, -⟩ := exists_text fun d hd => by
      obtain ⟨c, -, hc⟩ := List.mem_filterMap.mp (hsub hd)
      exact ⟨c, hc⟩
    exact h w t _ (by rw [ht, hread])
  rw [lenientReference, recordsOf]
  revert hsegment
  induction segments text generalizing w with
  | nil => exact fun _ => rfl
  | cons ds later ih =>
      intro hsegment
      rw [List.forall_mem_cons] at hsegment
      rw [Mealy.trace_cons, List.flatMap_cons, ih _ hsegment.2]
      exact congrArg (· ++ _) (hsegment.1 w)

/-- **What the lenient parser reads**, on every text and for every callback, also one that
rewrites the record. It reads all texts right, every record by itself, with just the callbacks
that empty the data vector of every record they get. -/
theorem calls_lenient_reads (callback : Callback σ) :
    (∀ w text, calls callback (init false, w) text = lenientReference callback w text) ∧
    ((∀ w text, calls callback (init false, w) text = recordsOf text) ↔
      EmptiesData callback) := by
  have hcalls : ∀ w text,
      calls callback (init false, w) text = lenientReference callback w text := by
    intro w text
    obtain ⟨hstate, htrace⟩ := wait_run callback (init false).mRec 0 0 false w (ahead text)
    have h := calls_lenient callback text (init false, w) rfl
    rw [show init false = ⟨.readWait, (init false).mRec, 0, 0, false⟩ from rfl] at h ⊢
    rw [h, htrace, hstate, List.nil_append]
  refine ⟨hcalls, ?_⟩
  simp only [hcalls]
  exact ⟨EmptiesData.of_lenientReference, EmptiesData.lenientReference_eq⟩

end DPFlow.IntelHex
