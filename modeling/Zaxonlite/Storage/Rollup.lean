import Zaxonlite.Storage.Adoption

/-!
# The promise rollup of a segment's whole life

A segment is created, appended to, reopened any number of times from whatever bytes a crash left of it, and
sealed at last. The records in its file are known throughout; the rollup that goes into its trailer is
rebuilt from nothing at every reopening, and covers the records only as far as later ones happen to.
-/

namespace Zaxonlite

open Bytes (encodeLe)
open Segment

/-- What `Journal.appendWrites` hands to the active segment for a write. -/
def journalRecord (sequence : ℕ) (write : Write) : AppendedRecord :=
  ⟨recordOf sequence write, write.ballot?⟩

/-- The life of an active segment up to now: its writer, the records in its file, and those that were there
when it was last reopened. A crash leaves the beginning of the file, of which the last bytes may be those
of a trailer whose writing was cut off. -/
inductive SegmentLife (header : SegmentHeader) :
    ActiveWriter → List AppendedRecord → List AppendedRecord → Prop
  | create : SegmentLife header (ActiveWriter.create header) [] []
  | append {w stored reopened} (sequence : ℕ) (write : Write)
      (hfits : (journalRecord sequence write).record.Fits) (h : SegmentLife header w stored reopened) :
      SegmentLife header (w.appendObserved (journalRecord sequence write))
        (stored ++ [journalRecord sequence write]) reopened
  | reopen {w stored reopened adopted} (chosenThrough : ℕ) {left : List UInt8}
      (hleft : left <+: (w.sealFile chosenThrough).2.file)
      (hadopt : ActiveWriter.adopt left = .ok adopted) (h : SegmentLife header w stored reopened) :
      SegmentLife header adopted (ActiveWriter.wholeRecords (left.length - headerSize) stored)
        (ActiveWriter.wholeRecords (left.length - headerSize) stored)

namespace SegmentLife

variable {header : SegmentHeader} {w : ActiveWriter} {stored reopened : List AppendedRecord}

/-- What is known of the writer: it is the one that appended the stored records, but its rollup has only
the ballots reported since it was reopened. -/
structure Rebuilt (header : SegmentHeader) (w : ActiveWriter) (stored reopened : List AppendedRecord) :
    Prop where
  fits : ∀ entry ∈ stored, entry.record.Fits
  front : reopened <+: stored
  writer : w = { (ActiveWriter.create header).appendAll stored with
    maxPromised := (reportedBallots (stored.drop reopened.length)).foldl max Ballot.zero }

theorem Rebuilt.inStep (h : Rebuilt header w stored reopened) :
    w.InStep ∧ w.file = header.encode ++ recordBytes stored := by
  obtain ⟨hstep, hfile⟩ :=
    ActiveWriter.appendAll_inStep (ActiveWriter.create_inStep header) stored
  rw [ActiveWriter.create_file] at hfile
  rw [h.writer]
  exact ⟨hstep, hfile⟩

theorem rebuilt_create (header : SegmentHeader) :
    Rebuilt header (ActiveWriter.create header) [] [] :=
  ⟨fun _ h => absurd h List.not_mem_nil, List.prefix_rfl, rfl⟩

theorem Rebuilt.append (h : Rebuilt header w stored reopened) {entry : AppendedRecord}
    (hfits : entry.record.Fits) :
    Rebuilt header (w.appendObserved entry) (stored ++ [entry]) reopened where
  fits := by
    intro e he
    rcases List.mem_append.1 he with he | he
    · exact h.fits e he
    · rw [List.mem_singleton.1 he]
      exact hfits
  front := h.front.trans (List.prefix_append _ _)
  writer := by
    have hdrop : (stored ++ [entry]).drop reopened.length = stored.drop reopened.length ++ [entry] :=
      List.drop_append_of_le_length h.front.length_le
    have hreported : reportedBallots (stored.drop reopened.length ++ [entry]) =
        reportedBallots (stored.drop reopened.length) ++ entry.promise.toList := by
      rw [reportedBallots, List.filterMap_append, reportedBallots]
      cases hpromise : entry.promise with
      | none => rw [List.filterMap_cons_none hpromise, List.filterMap_nil, Option.toList_none]
      | some b => rw [List.filterMap_cons_some hpromise, List.filterMap_nil, Option.toList_some]
    have happend : (ActiveWriter.create header).appendAll (stored ++ [entry]) =
        ((ActiveWriter.create header).appendAll stored).appendObserved entry := by
      rw [ActiveWriter.appendAll, ActiveWriter.appendAll, List.foldl_append]
      rfl
    rw [hdrop, hreported, List.foldl_append, happend, h.writer, ActiveWriter.appendObserved_eq,
      ActiveWriter.appendObserved_eq]
    rfl

/-! ### Reopening -/

/-- Behind whole records, what is no record is what is left. -/
theorem scanRecords_encode {entries : List AppendedRecord} {tail : List UInt8} {fuel : ℕ}
    (hfits : ∀ entry ∈ entries, entry.record.Fits)
    (htail : ∀ record rest, nextRecord tail ≠ .ok (some (record, rest)))
    (hfuel : (recordBytes entries ++ tail).length ≤ fuel) :
    scanRecords fuel (recordBytes entries ++ tail) = (entries.map AppendedRecord.record, tail) := by
  induction entries generalizing fuel with
  | nil =>
    cases fuel with
    | zero =>
      obtain rfl := List.length_eq_zero_iff.1 (Nat.le_zero.1 hfuel)
      rfl
    | succ fuel =>
      show scanRecords (fuel + 1) tail = ([], tail)
      rw [scanRecords]
      cases hnext : nextRecord tail with
      | error e => rfl
      | ok found =>
        cases found with
        | none =>
          rw [eq_nil_of_nextRecord hnext]
        | some p => exact absurd hnext (htail p.1 p.2)
  | cons entry entries ih =>
    have hbytes : recordBytes (entry :: entries) ++ tail =
        entry.record.encode ++ (recordBytes entries ++ tail) := by
      rw [recordBytes, List.flatMap_cons, List.append_assoc]
      rfl
    rw [hbytes, List.length_append, length_recordEncode, recordHeaderSize] at hfuel
    cases fuel with
    | zero => omega
    | succ fuel =>
      have hrest := @ih fuel (fun e he => hfits e (List.mem_cons_of_mem entry he)) (by omega)
      rw [hbytes, scanRecords, nextRecord_encode (hfits entry List.mem_cons_self)]
      show (entry.record :: (scanRecords fuel _).1, (scanRecords fuel _).2) = _
      rw [hrest]
      rfl

theorem nextRecord_trailer {trailer : SegmentTrailer} {tail : List UInt8} (h : tail <+: trailer.encode)
    (record : SegmentRecord) (rest : List UInt8) : nextRecord tail ≠ .ok (some (record, rest)) := by
  intro hnext
  have htail := (encode_of_nextRecord hnext).2
  have hmagic : tail.take 4 = encodeLe 4 recordMagic := by
    rw [htail, SegmentRecord.encode, SegmentRecord.encodeHead]
    simp only [List.append_assoc]
    exact List.take_left' (Bytes.length_encodeLe 4 _)
  have htrailer : trailer.encode.take 4 = encodeLe 4 trailerMagic := by
    rw [SegmentTrailer.encode, SegmentTrailer.encodeHead]
    simp only [List.append_assoc]
    exact List.take_left' (Bytes.length_encodeLe 4 _)
  have hlen : 4 ≤ tail.length := by
    rw [htail, List.length_append, length_recordEncode, recordHeaderSize]
    omega
  obtain ⟨more, hmore⟩ := h
  rw [← hmore, List.take_append_of_le_length hlen, hmagic] at htrailer
  exact absurd htrailer (by decide)

theorem headerSize_le_of_adopt {left : List UInt8} {adopted : ActiveWriter}
    (h : ActiveWriter.adopt left = .ok adopted) : headerSize ≤ left.length := by
  apply not_lt.1
  intro hshort
  rw [ActiveWriter.adopt, readHeader, if_pos hshort] at h
  cases h

theorem wholeRecords_all {entries : List AppendedRecord} {count : ℕ}
    (h : (recordBytes entries).length ≤ count) : ActiveWriter.wholeRecords count entries = entries :=
  (ActiveWriter.wholeRecords_prefix count entries).eq_of_length_le
    (ActiveWriter.wholeRecords_longest List.prefix_rfl h).length_le

/-- Reopening what a crash left keeps the whole records and starts the rollup over. -/
theorem Rebuilt.reopen (hheader : header.Fits) (h : Rebuilt header w stored reopened) {chosenThrough : ℕ}
    {left : List UInt8} {adopted : ActiveWriter} (hleft : left <+: (w.sealFile chosenThrough).2.file)
    (hadopt : ActiveWriter.adopt left = .ok adopted) :
    Rebuilt header adopted (ActiveWriter.wholeRecords (left.length - headerSize) stored)
      (ActiveWriter.wholeRecords (left.length - headerSize) stored) := by
  have hsize := headerSize_le_of_adopt hadopt
  obtain ⟨hstep, hfile⟩ := h.inStep
  obtain ⟨hcreated, hcreatedFile⟩ :=
    ActiveWriter.appendAll_inStep (ActiveWriter.create_inStep header) stored
  rw [ActiveWriter.create_file, ← hfile] at hcreatedFile
  rw [ActiveWriter.sealFile_file hstep] at hleft
  have hfront := ActiveWriter.wholeRecords_prefix (left.length - headerSize) stored
  refine ⟨fun e he => h.fits e (hfront.subset he), List.prefix_rfl, ?_⟩
  rw [List.drop_length]
  show adopted = { (ActiveWriter.create header).appendAll _ with maxPromised := Ballot.zero }
  by_cases hcut : left.length ≤ w.file.length
  · -- The file ends inside its records.
    have htake : left = ((ActiveWriter.create header).appendAll stored).file.take left.length := by
      rw [hcreatedFile]
      exact List.prefix_iff_eq_take.1
        (List.prefix_of_prefix_length_le hleft (List.prefix_append _ _) hcut)
    have htruncated := ActiveWriter.adopt_truncated hheader h.fits hsize
    rw [← htake, hadopt] at htruncated
    exact Except.ok.inj htruncated
  · -- It ends inside the trailer of an interrupted seal.
    have hrecords : w.file <+: left :=
      List.prefix_of_prefix_length_le (List.prefix_append _ _) hleft (by omega)
    obtain ⟨tail, rfl⟩ := hrecords
    have htail := nextRecord_trailer ((List.prefix_append_right_inj _).1 hleft)
    have hheaderLen := length_headerEncode header
    have hall : ActiveWriter.wholeRecords ((w.file ++ tail).length - headerSize) stored = stored := by
      apply wholeRecords_all
      rw [List.length_append, hfile, List.length_append, hheaderLen]
      omega
    have hdrop : (w.file ++ tail).drop headerSize = recordBytes stored ++ tail := by
      rw [hfile, List.append_assoc, ← hheaderLen, List.drop_left]
    have hread : readHeader w.file = .ok header := by
      rw [hfile]
      exact readHeader_encode hheader _
    have hopen : readHeader (w.file ++ tail) = .ok header := by
      rw [hfile, List.append_assoc]
      exact readHeader_encode hheader _
    have hreadable : readable (w.file ++ tail) = (stored.map AppendedRecord.record, tail) := by
      rw [readable, hdrop]
      exact scanRecords_encode h.fits htail le_rfl
    have hscan := scanLoop_start hsize
    rw [hreadable] at hscan
    have hok : recordTouchesEof tail = .ok true := by
      cases htouch : recordTouchesEof tail with
      | error e =>
        rw [adopt_untorn hopen (e := e) (by rw [hreadable, htouch])] at hadopt
        cases hadopt
      | ok touches =>
        cases touches with
        | true => rfl
        | false =>
          rw [adopt_untorn hopen (e := .corruptSegment) (by rw [hreadable, htouch])] at hadopt
          cases hadopt
    rw [hok] at hscan
    obtain ⟨hfirst, hunsealed⟩ := ActiveWriter.firstSlot_appendAll (ActiveWriter.create header) stored
    let kept : ActiveWriter := (ActiveWriter.create header).appendAll stored
    have hkept : ActiveWriter.adopt _ = .ok { kept with maxPromised := Ballot.zero } := ActiveWriter.adopt_of_scan
      hcreated (hcreatedFile ▸ List.prefix_append _ _) ⟨header, hopen⟩ (hcreatedFile ▸ hread) hfirst
      hunsealed (by rw [ActiveWriter.appendAll_scan]; exact hscan)
    rw [hadopt] at hkept
    rw [hall]
    exact Except.ok.inj hkept

/-- **One life.** However often the segment is reopened, its writer is known from its records. -/
theorem rebuilt (hheader : header.Fits) (h : SegmentLife header w stored reopened) :
    Rebuilt header w stored reopened := by
  induction h with
  | create => exact rebuilt_create header
  | append sequence write hfits _ ih => exact ih.append hfits
  | reopen chosenThrough hleft hadopt _ ih => exact ih.reopen hheader hleft hadopt

/-! ### Sealing -/

/-- **The sealed rollup.** The file that is sealed holds the records stored in it, and the rollup in its
trailer covers all their ballots exactly when those of the records reopened last are covered by records
appended since. -/
theorem sealed_rollup_iff (hheader : header.Fits) (h : SegmentLife header w stored reopened)
    (chosenThrough : ℕ) :
    (w.sealFile chosenThrough).2.file =
        header.encode ++ recordBytes stored ++ (w.sealedTrailer chosenThrough).encode ∧
      ((∀ b ∈ reportedBallots stored, b ≤ (w.sealedTrailer chosenThrough).maxPromised) ↔
        ∀ b ∈ reportedBallots reopened, b = Ballot.zero ∨
          ∃ b' ∈ reportedBallots (stored.drop reopened.length), b ≤ b') := by
  have hrebuilt := rebuilt hheader h
  obtain ⟨hstep, hfile⟩ := hrebuilt.inStep
  have hrollup : (w.sealedTrailer chosenThrough).maxPromised =
      (reportedBallots (stored.drop reopened.length)).foldl max Ballot.zero := by
    show w.maxPromised = _
    rw [hrebuilt.writer]
  have hsplit : reportedBallots stored =
      reportedBallots reopened ++ reportedBallots (stored.drop reopened.length) := by
    obtain ⟨later, hlater⟩ := hrebuilt.front
    rw [← hlater, List.drop_left, reportedBallots, List.filterMap_append]
    rfl
  constructor
  · rw [ActiveWriter.sealFile_file hstep, hfile]
  · rw [hrollup, hsplit]
    constructor
    · intro hall b hb
      rcases ActiveWriter.le_foldl_max_iff.1 (hall b (List.mem_append_left _ hb)) with hzero | hreach
      · exact Or.inl (le_antisymm hzero (ActiveWriter.zero_le_ballot b))
      · exact Or.inr hreach
    · intro hcovered b hb
      rcases List.mem_append.1 hb with hb | hb
      · rcases hcovered b hb with rfl | hreach
        · exact ActiveWriter.zero_le_ballot _
        · exact ActiveWriter.le_foldl_max_iff.2 (Or.inr hreach)
      · exact ActiveWriter.le_foldl_max_iff.2 (Or.inr ⟨b, hb, le_rfl⟩)

theorem promisedLife : SegmentLife ActiveWriter.promisedHeader
    ((ActiveWriter.create ActiveWriter.promisedHeader).appendObserved (journalRecord 1 (.promise ⟨1, 0, 1⟩)))
    [journalRecord 1 (.promise ⟨1, 0, 1⟩)] [] :=
  append 1 (.promise ⟨1, 0, 1⟩) ⟨by decide, by decide, by decide⟩ create

theorem reopenedLife : ∃ w, SegmentLife ActiveWriter.promisedHeader w
    [journalRecord 1 (.promise ⟨1, 0, 1⟩)] [journalRecord 1 (.promise ⟨1, 0, 1⟩)] := by
  have hlife := promisedLife
  have hrebuilt := rebuilt ⟨by decide, by decide⟩ hlife
  obtain ⟨hstep, hfile⟩ := hrebuilt.inStep
  set w := (ActiveWriter.create ActiveWriter.promisedHeader).appendObserved
    (journalRecord 1 (.promise ⟨1, 0, 1⟩)) with hw
  have hcreated : ((ActiveWriter.create ActiveWriter.promisedHeader).appendAll
      [journalRecord 1 (.promise ⟨1, 0, 1⟩)]).file = w.file := rfl
  have hlength : headerSize + (recordBytes [journalRecord 1 (.promise ⟨1, 0, 1⟩)]).length =
      w.file.length := by
    rw [hfile, List.length_append, length_headerEncode]
  have hheaderFits : ActiveWriter.promisedHeader.Fits := ⟨by decide, by decide⟩
  have hcut : headerSize ≤ w.file.length := by omega
  have hadopt := ActiveWriter.adopt_truncated hheaderFits hrebuilt.fits hcut
  rw [hcreated, List.take_length, wholeRecords_all (by omega)] at hadopt
  have hreopened := reopen 0 (by
    rw [ActiveWriter.sealFile_file hstep]
    exact List.prefix_append w.file _) hadopt hlife
  rw [wholeRecords_all (by omega)] at hreopened
  exact ⟨_, hreopened⟩

/-- Reopened, promised again and sealed, the trailer's rollup covers both promises. -/
theorem sealed_rollup_promised : ∃ w stored reopened,
    SegmentLife ActiveWriter.promisedHeader w stored reopened ∧ reopened ≠ [] ∧
      (w.sealFile 0).2.file =
        ActiveWriter.promisedHeader.encode ++ recordBytes stored ++ (w.sealedTrailer 0).encode ∧
      ∀ b ∈ reportedBallots stored, b ≤ (w.sealedTrailer 0).maxPromised := by
  obtain ⟨w, hreopened⟩ := reopenedLife
  have hlife := append 2 (.promise ⟨2, 0, 1⟩) ⟨by decide, by decide, by decide⟩ hreopened
  obtain ⟨hfile, hcovers⟩ := sealed_rollup_iff ⟨by decide, by decide⟩ hlife 0
  refine ⟨_, _, _, hlife, List.cons_ne_nil _ _, hfile, hcovers.2 fun b hb => ?_⟩
  obtain rfl := List.mem_singleton.1 hb
  exact Or.inr ⟨⟨2, 0, 1⟩, List.mem_singleton.2 rfl, by decide⟩

/-- A promise, a reopening and a seal: the trailer's rollup is below the promise in its own segment. -/
theorem sealed_rollup_forgets : ∃ w stored reopened,
    SegmentLife ActiveWriter.promisedHeader w stored reopened ∧
      ∃ b ∈ reportedBallots stored, ¬ b ≤ (w.sealedTrailer 0).maxPromised := by
  obtain ⟨w, hreopened⟩ := reopenedLife
  refine ⟨w, _, _, hreopened, ⟨1, 0, 1⟩, List.mem_singleton.2 rfl, ?_⟩
  rw [(rebuilt ⟨by decide, by decide⟩ hreopened).writer]
  show ¬ (⟨1, 0, 1⟩ : Ballot) ≤ Ballot.zero
  decide

end SegmentLife

end Zaxonlite
