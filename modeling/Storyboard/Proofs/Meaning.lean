/-
What a segment means after another one has been replaced.

A run whose records have moved along with its texts is the same run (`Steps.moved`). A segment that decodes
on its own therefore decodes to the same statements and leaves the same stack where injecting a script has
moved it to (`decode_of_inject`). Its sentinel may be what the next segment starts with, as long as that
does not move.
-/
import Storyboard.Proofs.Loading
import Storyboard.Proofs.RoundTrip

namespace Storyboard

namespace Machine

/-! ## Moved runs -/

/-- The event of the record that has been moved. -/
def Event.moved (change : Int) (e : Event) : Event := { e with record := e.record.moved change }

@[simp] theorem statements_map_moved (change : Int) (events : List Event) :
    statements (events.map (Event.moved change)) = statements events := by
  simp only [statements, List.filterMap_map]
  rfl

theorem records_map_moved (change : Int) (events : List Event) :
    records (events.map (Event.moved change)) = (records events).map (Record.moved change) := by
  simp only [records, List.map_map]
  rfl

theorem instruction?_of_isTextReference {r : Record} (h : r.isTextReference = true) :
    r.instruction? = some (.pushText r.operand) := by
  simp only [Record.isTextReference, Bool.and_eq_true, beq_iff_eq] at h
  simp [Record.instruction?, h.1, h.2]

theorem isTextReference_of_instruction? {r : Record} {operand : Int}
    (h : r.instruction? = some (.pushText operand)) : r.isTextReference = true := by
  unfold Record.instruction? at h
  simp only [Record.isTextReference, Bool.and_eq_true, beq_iff_eq]
  grind

variable {texts texts' : Int → Except Error Text} {s s' : Stack} {change : Int}

/-- A moved record does what it did, where its text has moved along. -/
theorem step_moved {record : Record} {position : Int} {statement : Option Statement}
    (htexts : record.isTextReference = true → ∀ t, texts record.operand = .ok t →
      texts' (record.operand + change) = .ok t)
    (h : step texts record position s = .ok statement s') :
    step texts' (record.moved change) position s = .ok statement s' := by
  cases href : record.isTextReference with
  | true =>
    have hmoved : record.moved change = { record with operand := record.operand + change } := by
      simp [Record.moved, href]
    have href' : (record.moved change).isTextReference = true := by
      rw [hmoved]
      exact href
    unfold step at h ⊢
    rw [instruction?_of_isTextReference href] at h
    rw [instruction?_of_isTextReference href', hmoved]
    obtain ⟨t, _, hlookup, hpush⟩ := Attempt.bind_eq_ok.1 h
    obtain ⟨htext, rfl⟩ := Attempt.ofExcept_eq_ok_iff.1 hlookup
    exact Attempt.bind_eq_ok.2 ⟨t, _, Attempt.ofExcept_eq_ok_iff.2 ⟨htexts href t htext, rfl⟩, hpush⟩
  | false =>
    have hmoved : record.moved change = record := by simp [Record.moved, href]
    rw [hmoved]
    unfold step at h ⊢
    rcases hi : record.instruction? with _ | i
    · rw [hi] at h
      exact h
    · cases i with
      | pushText operand =>
        rw [isTextReference_of_instruction? hi] at href
        contradiction
      | _ =>
        rw [hi] at h
        exact h

/-- **Moved records do what they did**, where their texts have moved along. -/
theorem Steps.moved {events : List Event} (h : Steps texts s events s')
    (htexts : ∀ e ∈ events, e.record.isTextReference = true → ∀ t, texts e.record.operand = .ok t →
      texts' (e.record.operand + change) = .ok t) :
    Steps texts' s (events.map (Event.moved change)) s' := by
  induction h with
  | nil => exact .nil
  | cons hstep _ ih =>
    obtain ⟨hhead, htail⟩ := List.forall_mem_cons.1 htexts
    exact .cons (step_moved hhead hstep) (ih htail)

/-! ## Moved pieces -/

variable {settings : Settings} {bytes bytes' left left' right right' : List UInt8} {p : Piece}
  {events : List Event}

/-- The records of a run that stays within a piece lie at the beginning of its code. -/
theorem exists_code_of_standAt {rs : List Record} (hbytes : bytes = left ++ (p.bytes ++ right))
    (hstands : Record.StandAt bytes (left.length + segmentHeaderSize) rs)
    (hroom : segmentHeaderSize + recordSize * rs.length ≤ p.size) :
    ∃ tail, p.code = rs.flatMap Record.bytes ++ tail := by
  obtain ⟨-, hlies⟩ := hstands
  have hheader : p.bytes.drop segmentHeaderSize = p.code := by
    have hlength : (Word.toBytes p.own ++ p.filler).length = segmentHeaderSize := by
      have := p.length_filler
      simp only [List.length_append, Word.length_toBytes]
      omega
    rw [Piece.bytes, ← List.append_assoc, ← hlength, List.drop_left]
  have hroom' : segmentHeaderSize + (rs.flatMap Record.bytes).length ≤ p.bytes.length := by
    rw [Record.length_flatMap_bytes, Piece.length_bytes]
    exact hroom
  rw [hbytes, ← List.drop_drop, List.drop_left, prefix_drop_append_iff hroom', hheader] at hlies
  obtain ⟨tail, htail⟩ := hlies
  exact ⟨tail, htail.symm⟩

/-- A text within a piece is found where the piece has moved to, if the piece's bytes are the same from
there on. -/
theorem textAt_moved {target : Int} {spelled : List UInt8} {t : Text}
    (htext : Stream.TextAt settings bytes target spelled t)
    (hbytes : bytes = left ++ (p.bytes ++ right))
    (hbytes' : bytes' = left' ++ ((p.moved change).bytes ++ right'))
    (hlength : (left'.length : Int) = left.length + change)
    (hreach : target + change < Stream.offsetLimit)
    (hstart : left.length ≤ target) (hend : target + spelled.length + 1 ≤ left.length + p.size)
    (hsame : ∀ n : Nat, target = left.length + n → (p.moved change).bytes.drop n = p.bytes.drop n) :
    Stream.TextAt settings bytes' (target + change) spelled t := by
  obtain ⟨n, hn⟩ : ∃ n : Nat, target = left.length + n := ⟨(target - left.length).toNat, by omega⟩
  have hroom : n + (spelled ++ [0]).length ≤ p.bytes.length := by
    rw [Piece.length_bytes, List.length_append, List.length_singleton]
    omega
  have hroom' : n + (spelled ++ [0]).length ≤ (p.moved change).bytes.length := by
    rw [Piece.length_bytes, Piece.size_moved, ← Piece.length_bytes]
    exact hroom
  have htarget : target.toNat = left.length + n := by omega
  have htarget' : (target + change).toNat = left'.length + n := by omega
  refine htext.transfer (by omega) hreach ?_
  have hlies := htext.lies
  rw [hbytes, htarget, ← List.drop_drop, List.drop_left, prefix_drop_append_iff hroom] at hlies
  rw [hbytes', htarget', ← List.drop_drop, List.drop_left, prefix_drop_append_iff hroom', hsame n hn]
  exact hlies

/-- The text of an event lies within the piece between `left` and what follows, where the piece's bytes
are the same after it has moved. -/
def TextWithin (settings : Settings) (bytes left : List UInt8) (p : Piece) (change : Int) (e : Event) :
    Prop :=
  ∃ spelled t, Stream.TextAt settings bytes (e.record.operand + textOperandBias) spelled t ∧
    left.length ≤ e.record.operand + textOperandBias ∧
    e.record.operand + textOperandBias + spelled.length + 1 ≤ left.length + p.size ∧
    ∀ n : Nat, e.record.operand + textOperandBias = left.length + n →
      (p.moved change).bytes.drop n = p.bytes.drop n

/-- A record that starts with the word of a sentinel is one. -/
theorem exists_sentinel {n n' : Nat} {sentinel : Record} (hsentinel : sentinel.isSentinel = true)
    (hstands : Record.StandAt bytes n [sentinel]) (hsame : (bytes'.drop n').take 4 = (bytes.drop n).take 4)
    (hroom : n' + recordSize ≤ bytes'.length) :
    ∃ sentinel' : Record, sentinel'.isSentinel = true ∧ Record.StandAt bytes' n' [sentinel'] := by
  obtain ⟨sentinel', rest, hfits', hcode⟩ :=
    Record.exists_bytes (show recordSize ≤ (bytes'.drop n').length by rw [List.length_drop]; omega)
  have hstands' : Record.StandAt bytes' n' [sentinel'] := by
    refine ⟨by simpa using hfits', ?_⟩
    rw [List.flatMap_singleton, hcode]
    exact List.prefix_append _ _
  have hword : ∀ {bytes : List UInt8} {n : Nat} {r : Record}, Record.StandAt bytes n [r] →
      (bytes.drop n).take 4 = Word.toBytes r.operation := by
    intro bytes n r h
    obtain ⟨-, tail, htail⟩ := h
    rw [← htail, List.flatMap_singleton, Record.bytes, List.append_assoc, List.append_assoc]
    exact List.take_left' (Word.length_toBytes _)
  rw [hword hstands', hword hstands] at hsame
  have hoperation : sentinel'.operation = sentinel.operation :=
    Word.eq_of_toBytes_prefix hfits'.1 (hstands.1 sentinel List.mem_cons_self).1 List.prefix_rfl
      (hsame ▸ List.prefix_rfl)
  refine ⟨sentinel', ?_, hstands'⟩
  unfold Record.isSentinel at hsentinel ⊢
  rwa [hoperation]

/-- A sentinel behind the records of a piece is still one after the piece has moved, if the piece is the same from
there on, and so is the word behind the piece unless the sentinel's first word lies in front of it. -/
theorem exists_sentinel_moved {m : Nat} {sentinel : Record} (hsentinel : sentinel.isSentinel = true)
    (hstands : Record.StandAt bytes (left.length + m) [sentinel])
    (hbytes : bytes = left ++ (p.bytes ++ right))
    (hbytes' : bytes' = left' ++ ((p.moved change).bytes ++ right')) (hm : m ≤ p.size)
    (hsame : (p.moved change).bytes.drop m = p.bytes.drop m)
    (hword : m + 4 ≤ p.size ∨ right'.take 4 = right.take 4) (hroom : right = [] ∨ recordSize ≤ right'.length) :
    ∃ sentinel' : Record, sentinel'.isSentinel = true ∧ Record.StandAt bytes' (left'.length + m) [sentinel'] := by
  have hdrop : bytes.drop (left.length + m) = p.bytes.drop m ++ right := by
    rw [hbytes, ← List.drop_drop, List.drop_left, List.drop_append_of_le_length (by rw [Piece.length_bytes]; exact hm)]
  have hdrop' : bytes'.drop (left'.length + m) = p.bytes.drop m ++ right' := by
    rw [hbytes', ← List.drop_drop, List.drop_left,
      List.drop_append_of_le_length (by rw [Piece.length_bytes, Piece.size_moved]; exact hm), hsame]
  refine exists_sentinel hsentinel hstands ?_ ?_
  · rw [hdrop, hdrop', List.take_append, List.take_append]
    congr 1
    rw [List.length_drop, Piece.length_bytes]
    cases hword with
    | inl hinside => rw [show 4 - (p.size - m) = 0 by omega, List.take_zero, List.take_zero]
    | inr hnext =>
      have htake := congrArg (List.take (4 - (p.size - m))) hnext
      rwa [List.take_take, List.take_take, Nat.min_eq_left (Nat.sub_le _ _)] at htake
  · have hlong := hstands.2.length_le
    rw [hdrop, Record.length_flatMap_bytes, List.length_singleton, List.length_append, List.length_drop,
      Piece.length_bytes] at hlong
    rw [hbytes', List.length_append, List.length_append, Piece.length_bytes, Piece.size_moved]
    cases hroom with
    | inl hnone =>
      rw [hnone, List.length_nil] at hlong
      omega
    | inr hnext => omega

/-- **A run within a piece goes with the piece** to where that has moved, if the run's records have been
moved, its texts have not been touched, and there is a sentinel behind its records. -/
theorem run_moved (hrun : Run settings bytes (left.length + segmentHeaderSize) s events s')
    (hbytes : bytes = left ++ (p.bytes ++ right))
    (hbytes' : bytes' = left' ++ ((p.moved change).bytes ++ right'))
    (hlength : (left'.length : Int) = left.length + change)
    (hroom : segmentHeaderSize + recordSize * events.length ≤ p.size)
    (hcode : ∀ rest, p.code = (records events).flatMap Record.bytes ++ rest →
      (p.moved change).code = ((records events).map (Record.moved change)).flatMap Record.bytes ++ rest)
    (hfits : ∀ e ∈ events, e.record.isTextReference = true → Word.Fits (e.record.operand + change))
    (htexts : ∀ e ∈ events, e.record.isTextReference = true →
      TextWithin settings bytes left p change e)
    (hsentinel : ∃ sentinel : Record, sentinel.isSentinel = true ∧
      Record.StandAt bytes' (left'.length + (segmentHeaderSize + recordSize * events.length)) [sentinel]) :
    Run settings bytes' (left'.length + segmentHeaderSize) s (events.map (Event.moved change)) s' := by
  obtain ⟨hsteps, _, -, hstands⟩ := hrun
  obtain ⟨hstands, -⟩ := Record.standAt_append_iff.1 hstands
  have hlookup : ∀ e ∈ events, e.record.isTextReference = true → ∀ t,
      textsOf settings bytes e.record.operand = .ok t →
      textsOf settings bytes' (e.record.operand + change) = .ok t := by
    intro e he href t ht
    obtain ⟨spelled, t', htext, hstart, hend, hsame⟩ := htexts e he href
    have hlt : e.record.operand + textOperandBias + change < Stream.offsetLimit := by
      have := hfits e he href
      simp only [Word.Fits] at this
      simp only [textOperandBias, Stream.offsetLimit]
      omega
    obtain rfl : t' = t := by
      rw [textsOf_eq_ok_iff.2 ⟨spelled, htext⟩] at ht
      exact Except.ok.inj ht
    refine textsOf_eq_ok_iff.2 ⟨spelled, ?_⟩
    have hmoved := textAt_moved htext hbytes hbytes' hlength hlt hstart hend hsame
    rwa [show e.record.operand + change + textOperandBias
      = e.record.operand + textOperandBias + change by omega]
  obtain ⟨tail, htail⟩ := exists_code_of_standAt hbytes hstands (by rw [length_records]; exact hroom)
  have hmoved : Record.StandAt bytes' (left'.length + segmentHeaderSize)
      (records (events.map (Event.moved change))) := by
    rw [records_map_moved]
    refine ⟨fun r hr => ?_, ?_⟩
    · obtain ⟨r, hmem, rfl⟩ := List.mem_map.1 hr
      obtain ⟨e, he, rfl⟩ := List.mem_map.1 hmem
      have hr := hstands.1 e.record hmem
      unfold Record.moved
      split
      · next href => exact ⟨hr.1, hr.2.1, hfits e he href⟩
      · exact hr
    · have hheader : (Word.toBytes (p.moved change).own ++ (p.moved change).filler).length
          = segmentHeaderSize := by
        have := (p.moved change).length_filler
        simp only [List.length_append, Word.length_toBytes]
        omega
      rw [hbytes', ← List.drop_drop, List.drop_left, Piece.bytes, ← List.append_assoc, List.append_assoc,
        ← hheader, List.drop_left, hcode _ htail, List.append_assoc]
      exact List.prefix_append _ _
  obtain ⟨sentinel, hend, hthere⟩ := hsentinel
  refine ⟨hsteps.moved hlookup, sentinel, hend, Record.standAt_append_iff.2 ⟨hmoved, ?_⟩⟩
  rwa [length_records, List.length_map, Nat.add_assoc]

end Machine

/-! ## Segments after injecting -/

namespace Container

/-- The records of a run and the texts they refer to, with their zeros, lie in the segment of the index `j`. -/
structure Holds (settings : Settings) (c : Container) (j : Nat) (segment : Segment)
    (events : List Machine.Event) : Prop where
  records : codeStart segment.offset + recordSize * events.length ≤ c.segmentEnd j
  texts : ∀ e ∈ events, e.record.isTextReference = true → ∃ spelled t,
    Stream.TextAt settings c.bytes (e.record.operand + textOperandBias) spelled t ∧
      segment.offset ≤ e.record.operand + textOperandBias ∧
      e.record.operand + textOperandBias + spelled.length + 1 ≤ c.segmentEnd j

/-- The sentinel of a run follows the first record that leaves the script, and the texts of the run lie
behind the sentinel. -/
structure Movable (segment : Segment) (events : List Machine.Event) : Prop where
  leaves : ∃ init last, events = init ++ [last] ∧ (∀ e ∈ init, e.record.isExit = false) ∧
    last.record.isExit = true
  texts : ∀ e ∈ events, e.record.isTextReference = true →
    codeStart segment.offset + recordSize * (events.length + 1)
      ≤ e.record.operand + textOperandBias

end Container

namespace Workspace

/-- A run that ends with the first record that leaves the script is what moving its segment scans. -/
theorem scan_of_leaves {events : List Machine.Event} {rest : List UInt8}
    (hleaves : ∃ init last, events = init ++ [last] ∧ (∀ e ∈ init, e.record.isExit = false) ∧
      last.record.isExit = true) (hfits : ∀ r ∈ Machine.records events, r.Fits) :
    scan ((Machine.records events).flatMap Record.bytes ++ rest) = (Machine.records events, rest) := by
  obtain ⟨init, last, rfl, hinit, hlast⟩ := hleaves
  have hrecords : Machine.records (init ++ [last]) = Machine.records init ++ [last.record] := by
    simp [Machine.records]
  rw [hrecords] at hfits ⊢
  refine scan_records hfits ?_ hlast rest
  intro r hr
  obtain ⟨e, he, rfl⟩ := List.mem_map.1 hr
  exact hinit e he

variable {settings : Settings} {i i' : Image} {left right : List UInt8} {front front' back back' : List Piece}
  {p : Piece} {events : List Machine.Event} {s s' : Stack}

/-- The records of a run lie at the beginning of the code of the piece that holds them, and its sentinel stands
behind them. -/
theorem exists_code_of_run (hbytes : i.bytes = left ++ (p.bytes ++ right))
    (hrun : Machine.Run settings i.bytes (left.length + segmentHeaderSize) s events s')
    (hroom : segmentHeaderSize + recordSize * events.length ≤ p.size) :
    (∃ rest, p.code = (Machine.records events).flatMap Record.bytes ++ rest) ∧
      ∃ sentinel : Record, sentinel.isSentinel = true ∧
        Record.StandAt i.bytes (left.length + (segmentHeaderSize + recordSize * events.length)) [sentinel] := by
  obtain ⟨sentinel, hsentinel, hstands⟩ := hrun.stands
  obtain ⟨hrecords, hlast⟩ := Record.standAt_append_iff.1 hstands
  rw [Machine.length_records, Nat.add_assoc] at hlast
  exact ⟨Machine.exists_code_of_standAt hbytes hrecords (by rw [Machine.length_records]; exact hroom),
    sentinel, hsentinel, hlast⟩

/-- The records of a run that its segment holds lie in the piece. -/
theorem room_of_holds (hpieces : i.pieces = front ++ p :: back)
    (hholds : i.container.Holds settings front.length
      ⟨p.id, (i.base + Piece.totalSize front : Nat)⟩ events) :
    segmentHeaderSize + recordSize * events.length ≤ p.size := by
  have hroom := hholds.records
  rw [segmentEnd_eq hpieces, codeStart] at hroom
  simp only at hroom
  omega

/-- A run of a piece that stays where it is, in front of a piece that keeps its first word. -/
theorem run_of_leading (hpieces : i.pieces = front ++ p :: back)
    (hpieces' : i'.pieces = front ++ p :: back') (hbase : i'.base = i.base)
    (hback : back'.head?.map Piece.own = back.head?.map Piece.own)
    (hrun : Machine.Run settings i.bytes (i.base + Piece.totalSize front + segmentHeaderSize) s events s')
    (hholds : i.container.Holds settings front.length
      ⟨p.id, (i.base + Piece.totalSize front : Nat)⟩ events) :
    Machine.Run settings i'.bytes (i'.base + Piece.totalSize front + segmentHeaderSize) s
      (events.map (Machine.Event.moved 0)) s' := by
  obtain ⟨left, hbytes, hleft⟩ := i.bytes_eq_from hpieces
  obtain ⟨left', hbytes', hleft'⟩ := i'.bytes_eq_from hpieces'
  have hfits : ∀ e ∈ events, e.record.Fits := fun e he =>
    hrun.stands.elim fun _ h => h.2.1 e.record (List.mem_append_left _ (List.mem_map_of_mem he))
  have hend := segmentEnd_eq hpieces
  have hroom := room_of_holds hpieces hholds
  rw [← hleft] at hrun
  rw [← hleft']
  rw [← p.moved_zero] at hbytes'
  refine Machine.run_moved hrun hbytes hbytes' (by omega) hroom ?_ ?_ ?_ ?_
  · intro rest h
    rw [Piece.moved_zero, Record.map_moved_zero]
    exact h
  · intro e he _
    rw [Int.add_zero]
    exact (hfits e he).2.2
  · intro e he href
    obtain ⟨spelled, t, htext, hstart, hstop⟩ := hholds.texts e he href
    rw [hend] at hstop
    refine ⟨spelled, t, htext, by rw [hleft]; exact hstart, by rw [hleft]; omega, ?_⟩
    intro n _
    rw [Piece.moved_zero]
  · obtain ⟨-, sentinel, hsentinel, hstands⟩ := exists_code_of_run hbytes hrun hroom
    refine Machine.exists_sentinel_moved hsentinel hstands hbytes hbytes' hroom (by rw [Piece.moved_zero])
      (.inr (Piece.take_flatMap_bytes hback)) ?_
    cases back with
    | nil => exact .inl rfl
    | cons next back =>
      obtain ⟨next', hnext', -⟩ := Option.map_eq_some_iff.1 hback
      have hlong := Piece.le_length_flatMap_bytes (List.ne_nil_of_mem (List.mem_of_head? hnext'))
      simp only [segmentHeaderSize, recordSize] at hlong ⊢
      exact .inr (by omega)

/-- From its sentinel on, a piece that has moved is the piece it was. -/
theorem drop_moved {rs : List Record} {rest : List UInt8} {n : Nat} {change : Int}
    (hcode : p.code = rs.flatMap Record.bytes ++ rest)
    (hmoved : (p.moved change).code = (rs.map (Record.moved change)).flatMap Record.bytes ++ rest)
    (hn : segmentHeaderSize + recordSize * rs.length ≤ n) :
    (p.moved change).bytes.drop n = p.bytes.drop n := by
  have hfiller := p.length_filler
  have hsplit : ∀ (own : Int) (rs : List Record),
      Word.toBytes own ++ (p.filler ++ (rs.flatMap Record.bytes ++ rest))
        = (Word.toBytes own ++ (p.filler ++ rs.flatMap Record.bytes)) ++ rest := by simp
  have hlength : ∀ (own : Int) (rs : List Record),
      (Word.toBytes own ++ (p.filler ++ rs.flatMap Record.bytes)).length
        = segmentHeaderSize + recordSize * rs.length := by
    intro own rs
    simp only [List.length_append, Word.length_toBytes, Record.length_flatMap_bytes]
    omega
  have hdrop : ∀ (own : Int) (rs' : List Record), rs'.length = rs.length →
      (Word.toBytes own ++ (p.filler ++ (rs'.flatMap Record.bytes ++ rest))).drop n
        = rest.drop (n - (segmentHeaderSize + recordSize * rs.length)) := by
    intro own rs' hrs'
    rw [hsplit, List.drop_append, List.drop_eq_nil_of_le (by rw [hlength, hrs']; exact hn), hlength,
      hrs', List.nil_append]
  rw [Piece.bytes, Piece.bytes, hcode, hmoved, hdrop _ rs rfl]
  exact hdrop _ _ (List.length_map _)

/-- A run of a piece that moves along with the pieces behind it. -/
theorem run_of_trailing {change : Int} (hpieces : i.pieces = front ++ p :: back)
    (hpieces' : i'.pieces = front' ++ p.moved change :: back.map (Piece.moved change))
    (hstart : ((i'.base + Piece.totalSize front' : Nat) : Int)
      = (i.base + Piece.totalSize front : Nat) + change)
    (hfits : ∀ r ∈ (scan p.code).1, r.isTextReference = true → Word.Fits (r.operand + change))
    (hrun : Machine.Run settings i.bytes (i.base + Piece.totalSize front + segmentHeaderSize) s events s')
    (hholds : i.container.Holds settings front.length
      ⟨p.id, (i.base + Piece.totalSize front : Nat)⟩ events)
    (hmovable : Container.Movable ⟨p.id, (i.base + Piece.totalSize front : Nat)⟩ events)
    (hword : change ≠ 0 → segmentHeaderSize + recordSize * events.length + 4 ≤ p.size) :
    Machine.Run settings i'.bytes (i'.base + Piece.totalSize front' + segmentHeaderSize) s
      (events.map (Machine.Event.moved change)) s' := by
  obtain ⟨left, hbytes, hleft⟩ := i.bytes_eq_from hpieces
  obtain ⟨left', hbytes', hleft'⟩ := i'.bytes_eq_from hpieces'
  have hrecords : ∀ r ∈ Machine.records events, r.Fits := fun r hr =>
    hrun.stands.elim fun _ h => h.2.1 r (List.mem_append_left _ hr)
  have hend := segmentEnd_eq hpieces
  have hroom := room_of_holds hpieces hholds
  rw [← hleft] at hrun
  rw [← hleft']
  obtain ⟨⟨rest, hcode⟩, sentinel, hsentinel, hstands⟩ := exists_code_of_run hbytes hrun hroom
  have hscan : ∀ rest, p.code = (Machine.records events).flatMap Record.bytes ++ rest →
      scan p.code = (Machine.records events, rest) := by
    intro rest hcode
    rw [hcode]
    exact scan_of_leaves hmovable.leaves hrecords
  have hmoved : ∀ rest, p.code = (Machine.records events).flatMap Record.bytes ++ rest →
      (p.moved change).code
        = ((Machine.records events).map (Record.moved change)).flatMap Record.bytes ++ rest := by
    intro rest hcode
    show moveCode change p.code = _
    rw [moveCode, hscan rest hcode]
  have hbehind : ∀ n, segmentHeaderSize + recordSize * events.length ≤ n →
      (p.moved change).bytes.drop n = p.bytes.drop n := fun n hn =>
    drop_moved hcode (hmoved rest hcode) (by rw [Machine.length_records]; exact hn)
  refine Machine.run_moved hrun hbytes hbytes' (by omega) hroom hmoved ?_ ?_ ?_
  · intro e he href
    rw [hscan rest hcode] at hfits
    exact hfits e.record (List.mem_map_of_mem he) href
  · intro e he href
    obtain ⟨spelled, t, htext, hfrom, hto⟩ := hholds.texts e he href
    have hfar := hmovable.texts e he href
    rw [hend] at hto
    refine ⟨spelled, t, htext, by rw [hleft]; exact hfrom, by rw [hleft]; omega, ?_⟩
    intro n hn
    refine hbehind n ?_
    simp only [codeStart, recordSize] at hfar ⊢
    omega
  · refine Machine.exists_sentinel_moved hsentinel hstands hbytes hbytes' hroom (hbehind _ (Nat.le_refl _)) ?_ ?_
    · by_cases hchange : change = 0
      · rw [hchange, Piece.map_moved_zero]
        exact .inr rfl
      · exact .inl (hword hchange)
    · cases back with
      | nil => exact .inl rfl
      | cons next back =>
        have hlong := Piece.le_length_flatMap_bytes
          (show (next :: back).map (Piece.moved change) ≠ [] from List.cons_ne_nil _ _)
        simp only [segmentHeaderSize, recordSize] at hlong ⊢
        exact .inr (by omega)

/-! ## Decoding after injecting -/

/-- The texts of a piece behind the script fit their words after it has moved, if the script moves what
is behind it at all. -/
theorem Injectable.fits {script : List UInt8} {mid : List Piece} {q : Piece}
    (h : Injectable i front p (mid ++ q :: back) script) :
    ∀ r ∈ (scan q.code).1, r.isTextReference = true → Word.Fits (r.operand + p.growth script) := by
  by_cases hgrowth : p.growth script = 0
  · intro r hr _
    rw [hgrowth, Int.add_zero]
    exact (fits_of_mem_scan hr).2.2
  · obtain ⟨-, -, -, hmovable⟩ := (h.pieces hgrowth).movable
    exact hmovable.fits

/-- **Injecting never changes what another segment means.** A segment of a loaded container decodes where
it is afterwards to the lines it decoded to before and leaves the same stack, if its records and texts lie
within it and, for a segment behind the script, only its last record leaves the script and the texts lie
behind the sentinel, of which the first word lies within the segment too if that moves. -/
theorem decode_of_inject {bytes script : List UInt8} {w₀ w w' : Workspace} {change : Int} {j : Nat}
    {segment : Segment} {t : Transcript} (hload : load bytes w₀ = .ok () w)
    (hdocumented : w.container.Documented) (hinject : inject script w = .ok change w')
    (hsegment : w.container.segments[j]? = some segment)
    (hother : segment.offset ≠ w.container.header.scriptStart)
    (hdecode : Decoder.decode ⟨settings, ⟨w.container.bytes, (codeStart segment.offset).toNat⟩, []⟩ = .ok t)
    (hrun : Machine.Run settings w.container.bytes (codeStart segment.offset).toNat [] events t.leftover)
    (hholds : w.container.Holds settings j segment events)
    (hmovable : w.container.header.scriptStart < segment.offset → Container.Movable segment events)
    (hword : w.container.header.scriptStart < segment.offset → change ≠ 0 →
      codeStart segment.offset + recordSize * events.length + 4 ≤ w.container.segmentEnd j) :
    ∃ segment' t', w'.container.segments[j]? = some segment' ∧
      Decoder.decode ⟨settings, ⟨w'.container.bytes, (codeStart segment'.offset).toNat⟩, []⟩ = .ok t' ∧
      t'.failure = none ∧ t'.lines = t.lines ∧ t'.leftover = t.leftover := by
  obtain ⟨-, hspelled⟩ := gives_load_iff.1 ⟨w.notices, hload⟩
  obtain ⟨i, hcontainer, htable⟩ := Container.exists_image hspelled hdocumented
  have haligned := hdocumented.aligned
  obtain ⟨script', hmem, hscript⟩ := hdocumented.script
  rw [← hcontainer] at hsegment hrun hholds hmovable hword haligned hmem hscript hother hdecode
  obtain ⟨k, hk⟩ := List.getElem?_of_mem hmem
  obtain ⟨front, p, back, hpieces, rfl, rfl⟩ := Piece.exists_of_getElem?_entries hk
  obtain ⟨front', q, back', hpieces', rfl, rfl⟩ := Piece.exists_of_getElem?_entries hsegment
  have halign : (i.base + Piece.totalSize front) % 4 = 0 := by
    have := haligned _ hmem
    simp only [alignment] at this
    omega
  obtain ⟨hinjectable, rfl, hc⟩ := (gives_inject_iff hpieces htable hscript.symm halign hcontainer.symm).1
    ⟨w'.notices, hinject⟩
  -- Decoding gives what the run amounts to, before and after.
  have hcode : ∀ start : Nat, (codeStart (start : Int)).toNat = start + segmentHeaderSize := by
    intro start
    simp only [codeStart]
    omega
  rw [hcode] at hrun hdecode
  have hlines : t.lines = (Machine.statements events).map Statement.render := by
    rw [Machine.decode_eq_of_run hrun] at hdecode
    injection hdecode with hdecode
    rw [← hdecode]
    rfl
  have hbase : (i.injected front p back script).base = i.base := base_injected hpieces
  have hafter : ∀ (before behind : List Piece) (q' : Piece) (change : Int),
      (i.injected front p back script).pieces = before ++ q' :: behind → front'.length = before.length →
      Machine.Run settings (i.injected front p back script).bytes
        ((i.injected front p back script).base + Piece.totalSize before + segmentHeaderSize) []
        (events.map (Machine.Event.moved change)) t.leftover →
      ∃ segment' t', w'.container.segments[front'.length]? = some segment' ∧
        Decoder.decode ⟨settings, ⟨w'.container.bytes, (codeStart segment'.offset).toNat⟩, []⟩ = .ok t' ∧
        t'.failure = none ∧ t'.lines = t.lines ∧ t'.leftover = t.leftover := by
    intro before behind q' change hpieces'' hlength hrun'
    have hdecode' := Machine.decode_eq_of_run hrun'
    rw [← hcode] at hdecode'
    rw [hlines, ← Machine.statements_map_moved change, hlength, hc]
    exact ⟨_, _, segments_getElem? hpieces'', hdecode', rfl, rfl, rfl⟩
  have hne : front'.length ≠ front.length := by
    intro hlength
    obtain ⟨rfl, -⟩ := List.append_inj (hpieces'.symm.trans hpieces) hlength
    exact hother hscript
  rcases Piece.before_or_behind (hpieces.symm.trans hpieces') hne with ⟨mid, rfl, rfl⟩ | ⟨mid, rfl, rfl⟩
  · have hpieces'' : (i.injected (front' ++ q :: mid) p back script).pieces
        = front' ++ q :: (mid ++ p.withScript script :: back.map (Piece.moved (p.growth script))) := by
      simp [Image.injected]
    refine hafter _ _ q 0 hpieces'' rfl ?_
    exact run_of_leading hpieces' hpieces'' hbase (by cases mid <;> rfl) hrun hholds
  · have hpieces'' : (i.injected front p (mid ++ q :: back') script).pieces
        = (front ++ p.withScript script :: mid.map (Piece.moved (p.growth script)))
          ++ q.moved (p.growth script) :: back'.map (Piece.moved (p.growth script)) := by
      simp [Image.injected]
    have hlength : (front ++ p :: mid).length
        = (front ++ p.withScript script :: mid.map (Piece.moved (p.growth script))).length := by simp
    have hstart : ((i.base + Piece.totalSize (front ++ p.withScript script
          :: mid.map (Piece.moved (p.growth script))) : Nat) : Int)
        = (i.base + Piece.totalSize (front ++ p :: mid) : Nat) + p.growth script := by
      simp only [Piece.totalSize_append, Piece.totalSize_cons, Piece.totalSize_map_moved, Piece.size,
        Piece.withScript, Piece.growth]
      omega
    have hbehind : i.container.header.scriptStart
        < ((i.base + Piece.totalSize (front ++ p :: mid) : Nat) : Int) := by
      have := p.size_pos
      rw [← hscript, Piece.totalSize_append, Piece.totalSize_cons]
      simp only
      omega
    refine hafter _ _ (q.moved (p.growth script)) (p.growth script) hpieces'' hlength ?_
    refine run_of_trailing hpieces' hpieces'' (by rw [hbase]; exact hstart) hinjectable.fits hrun hholds
      (hmovable hbehind) fun hgrowth => ?_
    have hroom := hword hbehind hgrowth
    rw [segmentEnd_eq hpieces', codeStart] at hroom
    simp only at hroom
    omega

/-- The script grows by four bytes; the call behind it and its text move and decode as before. -/
theorem decode_of_inject_call : ∃ (bytes script : List UInt8) (w w' : Workspace) (t t' : Transcript)
    (segment : Segment), load bytes {} = .ok () w ∧ inject script w = .ok 4 w' ∧
      Decoder.decode ⟨⟨some "ascii", some 16⟩, ⟨w.container.bytes, 184⟩, []⟩ = .ok t ∧
      t.lines = ["sub007(\"a\");".toList, "exit(0);".toList] ∧
      w'.container.segments[1]? = some segment ∧
      Decoder.decode ⟨⟨some "ascii", some 16⟩, ⟨w'.container.bytes, (codeStart segment.offset).toNat⟩, []⟩
        = .ok t' ∧ t'.failure = none ∧ t'.lines = t.lines ∧ t'.leftover = t.leftover := by
  let settings : Settings := ⟨some "ascii", some 16⟩
  let i : Image := .small
  let script := codeOf [.pushInt 5, .exit, .finish] ++ [1]
  let events : List Machine.Event :=
    [⟨(Instruction.pushInt 0x40).toRecord, [], none⟩,
      ⟨(Instruction.pushInt 7).toRecord, [.int32 0x40], none⟩,
      ⟨Instruction.pushTrue.toRecord, [.int32 7, .int32 0x40], none⟩,
      ⟨(Instruction.pushText 192).toRecord, [.bool true, .int32 7, .int32 0x40], none⟩,
      ⟨(Instruction.callSub 2).toRecord, [.text ['a'], .bool true, .int32 7, .int32 0x40],
        some (.sub 7 ["\"a\"".toList])⟩,
      ⟨(Instruction.pushInt 0).toRecord, [], none⟩,
      ⟨Instruction.exit.toRecord, [.int32 0], some (.exit 0)⟩]
  have hinjectable : Injectable i [] .leaving [.calling] script :=
    ⟨by decide +kernel, fun _ => by decide +kernel, fun _ _ => by decide +kernel,
      fun _ => by decide +kernel⟩
  obtain ⟨notices, hload⟩ := gives_load Image.spelled_small {}
  obtain ⟨notices', hinject⟩ : Gives (inject script) ⟨i.container, notices⟩ 4
      (i.injected [] .leaving [.calling] script).container :=
    (Image.scripted_small.gives_inject_iff rfl).2 ⟨hinjectable, by decide +kernel, rfl⟩
  have htext : Machine.textsOf settings i.bytes 192 = .ok ['a'] := by decide +kernel
  have hsteps : Machine.Steps (Machine.textsOf settings i.bytes) [] events [] :=
    .cons (Machine.step_pushInt _) (.cons (Machine.step_pushInt _) (.cons Machine.step_pushTrue
      (.cons (Machine.step_pushText htext) (.cons (Machine.step_callSub rfl rfl rfl)
        (.cons (Machine.step_pushInt _) (.cons (Machine.step_exit _) .nil))))))
  have hrun : Machine.Run settings i.bytes 184 [] events [] :=
    ⟨hsteps, Instruction.finish.toRecord, rfl, by decide +kernel, by decide +kernel⟩
  have hholds : i.container.Holds settings 1 ⟨2, 128⟩ events := by
    have htext : Stream.TextAt settings i.bytes (192 + textOperandBias) [97] ['a'] :=
      ⟨by decide, by decide, by decide +kernel, by decide, ⟨16, rfl, by decide⟩, by decide +kernel⟩
    have hoperand : ∀ e ∈ events, e.record.isTextReference = true → e.record.operand = 192 := by
      decide +kernel
    refine ⟨by decide +kernel, fun e he href => ⟨[97], ['a'], ?_⟩⟩
    rw [hoperand e he href]
    exact ⟨htext, by decide, by decide +kernel⟩
  have hmovable : Container.Movable ⟨2, 128⟩ events :=
    ⟨⟨_, _, (List.dropLast_concat_getLast (List.cons_ne_nil _ _)).symm, by decide +kernel,
      by decide +kernel⟩, by decide +kernel⟩
  have hlines : (Machine.statements events).map Statement.render
      = ["sub007(\"a\");".toList, "exit(0);".toList] := by decide +kernel
  have hsegment : i.container.segments[1]? = some ⟨2, 128⟩ := by decide +kernel
  have hword : codeStart 128 + recordSize * events.length + 4 ≤ i.container.segmentEnd 1 := by decide +kernel
  obtain ⟨segment, t', hafter⟩ := decode_of_inject hload Image.documented_small hinject hsegment
    (show (128 : Int) ≠ 36 by decide) (Machine.decode_eq_of_run hrun) hrun hholds (fun _ => hmovable)
    (fun _ _ => hword)
  exact ⟨i.bytes, script, _, _, _, t', segment, hload, hinject, Machine.decode_eq_of_run hrun, hlines,
    hafter⟩

end Workspace

/-! ## A sentinel that the next segment changes -/

/-- A segment that leaves the script with its last record, so that its sentinel is what the next one starts with. -/
def Piece.unended : Piece :=
  { Piece.calling with
    own := 140
    code := codeOf [.pushInt 0, .exit]
    own_fits := by decide }

/-- A segment of nothing but zeros. -/
def Piece.zeros : Piece :=
  { Piece.leaving with
    id := 4
    own := 0
    code := []
    id_fits := by decide
    own_fits := by decide }

/-- The script and these two segments behind it. -/
def Image.touching : Image where
  header := ⟨48, 0, 20, 3⟩
  lead := [0, 0, 0, 0] ++ Header.bytes ⟨48, 0, 20, 3⟩
  gap := [0, 0, 0, 0]
  pieces := [.leaving, .unended, .zeros]

namespace Workspace

/-- The first word of the sentinel has to lie within a segment that moves. -/
theorem not_decode_of_inject : ¬∀ (settings : Settings) (bytes script : List UInt8) (w₀ w w' : Workspace)
    (change : Int) (j : Nat) (segment : Segment) (t : Transcript) (events : List Machine.Event),
    load bytes w₀ = .ok () w → w.container.Documented → inject script w = .ok change w' →
    w.container.segments[j]? = some segment → segment.offset ≠ w.container.header.scriptStart →
    Decoder.decode ⟨settings, ⟨w.container.bytes, (codeStart segment.offset).toNat⟩, []⟩ = .ok t →
    Machine.Run settings w.container.bytes (codeStart segment.offset).toNat [] events t.leftover →
    w.container.Holds settings j segment events →
    (w.container.header.scriptStart < segment.offset → Container.Movable segment events) →
    ∃ segment' t', w'.container.segments[j]? = some segment' ∧
      Decoder.decode ⟨settings, ⟨w'.container.bytes, (codeStart segment'.offset).toNat⟩, []⟩ = .ok t' ∧
      t'.failure = none ∧ t'.lines = t.lines ∧ t'.leftover = t.leftover := by
  intro claim
  let settings : Settings := ⟨some "ascii", some 16⟩
  let i : Image := .touching
  let script := codeOf [.pushInt 5, .exit, .finish] ++ [1]
  let i' : Image := i.injected [] .leaving [.unended, .zeros] script
  let events : List Machine.Event :=
    [⟨(Instruction.pushInt 0).toRecord, [], none⟩,
      ⟨Instruction.exit.toRecord, [.int32 0], some (.exit 0)⟩]
  have hspelled : i.container.Spelled :=
    ⟨by decide +kernel, by decide +kernel, by decide +kernel, by decide +kernel, by decide +kernel,
      by decide +kernel⟩
  have hdocumented : i.container.Documented :=
    ⟨by decide +kernel, by decide +kernel, by decide +kernel, by decide +kernel, by decide +kernel,
      by decide +kernel⟩
  have hscripted : i.Scripted [] .leaving [.unended, .zeros] := ⟨rfl, rfl, rfl, by decide +kernel⟩
  have hinjectable : Injectable i [] .leaving [.unended, .zeros] script :=
    ⟨by decide +kernel, fun _ => by decide +kernel, fun _ _ => by decide +kernel,
      fun _ => by decide +kernel⟩
  obtain ⟨notices, hload⟩ := gives_load hspelled {}
  obtain ⟨notices', hinject⟩ : Gives (inject script) ⟨i.container, notices⟩ 4 i'.container :=
    (hscripted.gives_inject_iff rfl).2 ⟨hinjectable, by decide +kernel, rfl⟩
  have hrun : Machine.Run settings i.bytes 196 [] events [] :=
    ⟨.cons (Machine.step_pushInt 0) (.cons (Machine.step_exit 0) .nil), ⟨0, 0, 0⟩, rfl, by decide +kernel,
      by decide +kernel⟩
  have hholds : i.container.Holds settings 1 ⟨2, 140⟩ events := by
    have hnone : ∀ e ∈ events, e.record.isTextReference = false := by decide
    exact ⟨by decide +kernel, fun e he href => absurd href (Bool.eq_false_iff.1 (hnone e he))⟩
  have hmovable : Container.Movable ⟨2, 140⟩ events :=
    ⟨⟨_, _, (List.dropLast_concat_getLast (List.cons_ne_nil _ _)).symm, by decide +kernel,
      by decide +kernel⟩, by decide +kernel⟩
  have hsegment : i.container.segments[1]? = some ⟨2, 140⟩ := by decide +kernel
  have hsegment' : i'.container.segments[1]? = some ⟨2, 144⟩ := by decide +kernel
  obtain ⟨segment, t', hmoved, hdecode, hsucceeds, -⟩ := claim settings i.bytes script _ _ _ 4 1 ⟨2, 140⟩ _ events
    hload hdocumented hinject hsegment (show (140 : Int) ≠ 48 by decide) (Machine.decode_eq_of_run hrun) hrun hholds
    fun _ => hmovable
  obtain rfl := Option.some.inj (hsegment'.symm.trans hmoved)
  -- Where the sentinel was, the next segment now starts with the code of a call, for which the stack is empty.
  have hcall : Record.StandAt i'.bytes (200 + recordSize + recordSize) [⟨4, 0, 0⟩] := ⟨by decide, by decide +kernel⟩
  have hfails : (Decoder.transcribe ⟨settings, ⟨i'.bytes, 200⟩, []⟩).failure ≠ none := by
    rw [Machine.transcribe_step ⟨by decide, by decide +kernel⟩ (Machine.step_position (Machine.step_pushInt 0)),
      Machine.transcribe_step ⟨by decide, by decide +kernel⟩ (Machine.step_position (Machine.step_exit 0)),
      Machine.transcribe_of_standAt hcall]
    exact Option.some_ne_none _
  rw [Machine.eq_transcribe_of_decode hdecode] at hsucceeds
  exact hfails hsucceeds

end Workspace
end Storyboard
