import Ade.Proof.Wal.FileStore

namespace Ade.Proof.Wal
open Library Ade.Wal

/-- The store and its directory hold the log. -/
structure Holds (log : SegmentedLog) (store : FileWalStore) (files : Files) : Prop where
  index : store.currentFileIndex.toNat = log.closed.length
  entryCount : store.currentEntryCount = log.current.length
  byteCount : store.currentByteCount = (framesOf log.current).length
  numbered : Numbered files (log.closed.map sealedFile ++ [framesOf log.current])

theorem holds_empty : Holds .empty ⟨0, 0, 0⟩ ((∅ : Files).insert 0 []) where
  index := rfl
  entryCount := rfl
  byteCount := rfl
  numbered := by
    have none : Numbered ∅ [] := ⟨by simp, fun index => by simp⟩
    exact none.addLast UInt32.toNat_zero []

theorem openStore_empty : openStore ∅ = .ok (⟨0, 0, 0⟩, (∅ : Files).insert 0 []) := by
  have none : (∅ : Files).keys = [] := Std.ExtTreeMap.keys_eq_nil_iff.mpr rfl
  rw [openStore, none]
  rfl

theorem readAll_holds {log : SegmentedLog} {store : FileWalStore} {files : Files}
    (holds : Holds log store files) : readAll store files = .ok log.entries := by
  have whole := readFrames_whole log.current []
  rw [List.append_nil] at whole
  rw [readAll_directory holds.numbered holds.index, whole]
  rfl

theorem writeFrame_holds {log : SegmentedLog} {store : FileWalStore} {files : Files}
    (holds : Holds log store files) (entry : WalEntry) :
    ∃ store' files', writeFrame entry store files = .ok (store', files') ∧
      Holds { log with current := log.current ++ [entry] } store' files' := by
  have last : store.currentFileIndex.toNat = (log.closed.map sealedFile).length := by
    rw [holds.index, List.length_map]
  have opened := holds.numbered.readFile_last last
  refine ⟨⟨store.currentFileIndex, store.currentEntryCount + 1,
    store.currentByteCount + (frame entry).length⟩, _, by rw [writeFrame, opened]; rfl,
    holds.index, ?_, ?_, ?_⟩
  · simp [holds.entryCount]
  · simp [holds.byteCount]
  · simpa using holds.numbered.replaceLast last (framesOf log.current ++ frame entry)

theorem rotate_holds {log : SegmentedLog} {store : FileWalStore} {files : Files}
    (holds : Holds log store files) (space : log.closed.length + 1 < 2 ^ 32) :
    ∃ store' files', rotate store files = .ok (store', files') ∧
      Holds ⟨log.closed ++ [log.current], []⟩ store' files' := by
  have last : store.currentFileIndex.toNat = (log.closed.map sealedFile).length := by
    rw [holds.index, List.length_map]
  have opened := holds.numbered.readFile_last last
  have sealedDirectory := holds.numbered.replaceLast last (sealedFile log.current)
  have next : (store.currentFileIndex + 1).toNat = log.closed.length + 1 := by
    rw [UInt32.toNat_add, holds.index, UInt32.toNat_one, Nat.mod_eq_of_lt space]
  refine ⟨⟨store.currentFileIndex + 1, 0, 0⟩, _, by rw [rotate, sealWithCrc, opened]; rfl,
    ?_, rfl, rfl, ?_⟩
  · simpa using next
  · simpa [sealedFile] using sealedDirectory.addLast (by simpa using next) []

theorem append_holds {bounds : Bounds} {log : SegmentedLog} {store : FileWalStore} {files : Files}
    (holds : Holds log store files) (entry : WalEntry)
    (space : (log.push bounds entry).closed.length < 2 ^ 32) :
    ∃ store' files', append bounds entry store files = .ok (store', files') ∧
      Holds (log.push bounds entry) store' files' := by
  rw [append, holds.entryCount, holds.byteCount]
  rw [SegmentedLog.push] at space ⊢
  by_cases full : mustRotate bounds log.current.length (framesOf log.current).length entry = true
  · simp only [full, if_true, List.length_append, List.length_singleton] at space ⊢
    obtain ⟨middle, sealedFiles, rotated, holds'⟩ := rotate_holds holds space
    obtain ⟨store', files', written, holds''⟩ := writeFrame_holds holds' entry
    refine ⟨store', files', ?_, holds''⟩
    rw [rotated]
    exact written
  · simp only [full, if_false, Bool.false_eq_true] at space ⊢
    exact writeFrame_holds holds entry

theorem push_closed_length (bounds : Bounds) (log : SegmentedLog) (entry : WalEntry) :
    log.closed.length ≤ (log.push bounds entry).closed.length := by
  rw [SegmentedLog.push]
  split_ifs <;> simp

theorem pushAll_closed_length (bounds : Bounds) (entries : List WalEntry) (log : SegmentedLog) :
    log.closed.length ≤ (log.pushAll bounds entries).closed.length := by
  induction entries generalizing log with
  | nil => exact le_rfl
  | cons entry entries ih => exact (push_closed_length bounds log entry).trans (ih _)

theorem push_entries (bounds : Bounds) (log : SegmentedLog) (entry : WalEntry) :
    (log.push bounds entry).entries = log.entries ++ [entry] := by
  rw [SegmentedLog.push]
  split_ifs <;> simp [SegmentedLog.entries]

theorem pushAll_entries (bounds : Bounds) (entries : List WalEntry) (log : SegmentedLog) :
    (log.pushAll bounds entries).entries = log.entries ++ entries := by
  induction entries generalizing log with
  | nil => simp [SegmentedLog.pushAll]
  | cons entry entries ih =>
      calc ((log.push bounds entry).pushAll bounds entries).entries
          = (log.push bounds entry).entries ++ entries := ih _
        _ = log.entries ++ entry :: entries := by rw [push_entries, List.append_assoc]; rfl

theorem appendAll_holds {bounds : Bounds} {log : SegmentedLog} {store : FileWalStore}
    {files : Files} (holds : Holds log store files) (entries : List WalEntry)
    (space : (log.pushAll bounds entries).closed.length < 2 ^ 32) :
    ∃ store' files', appendAll bounds entries store files = .ok (store', files') ∧
      Holds (log.pushAll bounds entries) store' files' := by
  induction entries generalizing log store files with
  | nil => exact ⟨store, files, rfl, holds⟩
  | cons entry entries ih =>
      have early : (log.push bounds entry).closed.length < 2 ^ 32 :=
        lt_of_le_of_lt (pushAll_closed_length bounds entries _) space
      obtain ⟨middle, written, appended, holds'⟩ := append_holds holds entry early
      obtain ⟨store', files', rest, holds''⟩ := ih holds' space
      refine ⟨store', files', ?_, holds''⟩
      rw [appendAll, appended]
      exact rest

/-! ## Recovery from a cut -/

theorem recoverOpenFile_clean (whole : List WalEntry) :
    recoverOpenFile (framesOf whole) =
      (⟨whole.length, (framesOf whole).length, false⟩, framesOf whole) := by
  have walked := recoverWalk_frames whole [] 0 0
  rw [List.append_nil, recoverWalk_short [] (by simp), Nat.zero_add,
    Nat.zero_add] at walked
  simp [recoverOpenFile, walked]

theorem recoverOpenFile_torn {rest : Bytes} (whole : List WalEntry) (header : 4 ≤ rest.length)
    (torn : rest.length < 4 + fromBeBytes (rest.take 4)) :
    recoverOpenFile (framesOf whole ++ rest) =
      (⟨whole.length, (framesOf whole).length, true⟩, framesOf whole) := by
  have walked := recoverWalk_frames whole rest 0 0
  rw [recoverWalk_torn header torn, Nat.zero_add, Nat.zero_add] at walked
  simp [recoverOpenFile, walked]

/-- Fewer than four bytes are no header: the walk stops and leaves them in the file. -/
theorem recoverOpenFile_short {rest : Bytes} (whole : List WalEntry) (short : rest.length < 4) :
    (recoverOpenFile (framesOf whole ++ rest)).2 = framesOf whole ++ rest := by
  simp [recoverOpenFile, recoverWalk_frames, recoverWalk_short rest short]

/-- Four zero bytes are taken for an empty frame. -/
theorem recoverOpenFile_zero (whole : List WalEntry) :
    (recoverOpenFile (framesOf whole ++ [0, 0, 0, 0])).2 = framesOf whole ++ [0, 0, 0, 0] := by
  have zero : ∀ count pos, recoverWalk [0, 0, 0, 0] count pos = ⟨count + 1, pos + 4, false⟩ := by
    intro count pos
    rw [recoverWalk]
    simpa [fromBeBytes] using recoverWalk_short [] (by simp) (count + 1) (pos + 4)
  simp [recoverOpenFile, recoverWalk_frames, zero]

theorem readFrames_short {rest : Bytes} (present : rest ≠ []) (short : rest.length < 4)
    (pos : Nat) : readFrames rest pos (pos + rest.length) = .error (.io .unexpectedEof) := by
  have positive : 0 < rest.length := List.length_pos_iff.mpr present
  rw [readFrames, if_pos (by omega), if_neg (by omega)]
  rfl

theorem readFrames_zero (pos : Nat) :
    readFrames [0, 0, 0, 0] pos (pos + 4) = .error (.decode (.unexpectedEof 0 1)) := by
  have undecodable : decodeWalEntry [] = .error (.decode (.unexpectedEof 0 1)) := by decide
  rw [readFrames, if_pos (by omega)]
  simp [fromBeBytes, undecodable, bind, Except.bind]

theorem readFrames_fails {rest : Bytes} {failure : WalError} (whole : List WalEntry)
    (fails : ∀ pos, readFrames rest pos (pos + rest.length) = .error failure) :
    readFrames (framesOf whole ++ rest) 0 (framesOf whole ++ rest).length = .error failure := by
  rw [readFrames_frames whole rest (by simp), List.length_append, Nat.zero_add, fails]
  rfl

section Cut

variable {log : SegmentedLog} {files : Files} {openBytes rest : Bytes}

theorem opened_holds {whole : List WalEntry} {truncated : Bool}
    (numbered : Numbered files (log.closed.map sealedFile ++ [openBytes]))
    (recovered : recoverOpenFile openBytes =
      (⟨whole.length, (framesOf whole).length, truncated⟩, framesOf whole)) :
    ∃ store files', openStore files = .ok (store, files') ∧
      Holds { log with current := whole } store files' := by
  have index := toNat_openIndex numbered
  refine ⟨_, _, openStore_directory numbered, index, ?_, ?_, ?_⟩
  · rw [recovered]
  · rw [recovered]
  · rw [recovered]
    exact numbered.replaceLast (by rw [index, List.length_map]) _

theorem recoversTo_of_holds {bounds : Bounds} {further : List WalEntry}
    (opened : ∃ store files', openStore files = .ok (store, files') ∧ Holds log store files')
    (space : (log.pushAll bounds further).closed.length < 2 ^ 32) :
    RecoversTo bounds log files further := by
  obtain ⟨store, recovered, openedOk, holds⟩ := opened
  obtain ⟨store', files', appended, holds'⟩ := appendAll_holds holds further space
  refine ⟨store, recovered, openedOk, readAll_holds holds, store', files', appended, ?_⟩
  rw [readAll_holds holds', pushAll_entries]

/-- Recovery left bytes behind that reading rejects. -/
theorem not_recoversTo {bounds : Bounds} {target : SegmentedLog} {further : List WalEntry}
    {failure : WalError}
    (numbered : Numbered files (log.closed.map sealedFile ++ [openBytes]))
    (unchanged : (recoverOpenFile openBytes).2 = openBytes)
    (fails : readFrames openBytes 0 openBytes.length = .error failure) :
    ¬ RecoversTo bounds target files further := by
  rintro ⟨store, recovered, opened, read, -⟩
  rw [openStore_directory numbered, unchanged] at opened
  cases opened
  have index := toNat_openIndex numbered
  have last : (UInt32.ofNat log.closed.length).toNat = (log.closed.map sealedFile).length := by
    rw [index, List.length_map]
  have kept := numbered.replaceLast last openBytes
  rw [readAll_directory kept index, fails] at read
  cases read

theorem remainder_torn {suffix : Bytes} {entries whole : List WalEntry}
    (remainder : Remainder suffix entries whole rest) (header : 4 ≤ rest.length)
    (announced : whole = entries → 4 ≤ suffix.length →
      suffix.length = 4 ∧ 0 < fromBeBytes suffix) :
    rest.length < 4 + fromBeBytes (rest.take 4) := by
  cases remainder with
  | inFrame next later kept split short =>
      have keptHeader : 4 ≤ kept := by
        rw [List.length_take] at header
        omega
      have announcedLength := fromBeBytes_header_take (length_encodeWalEntry next) keptHeader
      rw [length_frame] at short
      rw [← frame] at announcedLength
      rw [announcedLength, List.length_take]
      omega
  | inSuffix kept all =>
      rw [List.length_take] at header
      obtain ⟨small, positive⟩ := announced all (by omega)
      have everything : suffix.take kept = suffix := List.take_of_length_le (by omega)
      have four : suffix.take 4 = suffix := List.take_of_length_le (by omega)
      rw [everything, four]
      omega

end Cut

theorem suffix_present {crash : Crash} {written : Bytes}
    (present : 4 ≤ (crash.suffix written).length) : crash.suffix written = crcSuffix written := by
  rw [Crash.suffix] at present ⊢
  split_ifs at present ⊢ with rotating
  · rfl
  · simp at present

theorem suffix_announces {crash : Crash} {written : Bytes} (nonzero : crc32c written ≠ 0)
    (present : 4 ≤ (crash.suffix written).length) :
    (crash.suffix written).length = 4 ∧ 0 < fromBeBytes (crash.suffix written) := by
  rw [suffix_present present, fromBeBytes_crcSuffix]
  refine ⟨length_crcSuffix written, Nat.pos_of_ne_zero fun zero => nonzero ?_⟩
  exact UInt32.toNat_inj.mp (by simpa using zero)

theorem crashFiles_numbered {log : SegmentedLog} {store : FileWalStore} {files : Files}
    (holds : Holds log store files) (crash : Crash) :
    Numbered (crashFiles crash store files) (log.closed.map sealedFile ++
      [(framesOf log.current ++ crash.suffix (framesOf log.current)).take crash.kept]) := by
  have last : store.currentFileIndex.toNat = (log.closed.map sealedFile).length := by
    rw [holds.index, List.length_map]
  have written : files[store.currentFileIndex]?.getD [] = framesOf log.current := by
    simp [holds.numbered.lookup, last]
  rw [crashFiles, written]
  exact holds.numbered.replaceLast last _

theorem crashFiles_recoversTo_iff {bounds : Bounds} {log : SegmentedLog} {store : FileWalStore}
    {files : Files} (holds : Holds log store files) (crash : Crash) (further : List WalEntry)
    (space : ((log.cut crash.kept).pushAll bounds further).closed.length < 2 ^ 32) :
    RecoversTo bounds (log.cut crash.kept) (crashFiles crash store files) further ↔
      CleanCut log crash := by
  have numbered := crashFiles_numbered holds crash
  obtain ⟨rest, taken, length, remainder⟩ :=
    take_frames (crash.suffix (framesOf log.current)) log.current crash.kept
  rw [taken] at numbered
  rw [CleanCut, ← length]
  by_cases empty : rest.length = 0
  · obtain rfl : rest = [] := List.length_eq_zero_iff.mp empty
    rw [List.append_nil] at numbered
    refine iff_of_true ?_ (.inl rfl)
    exact recoversTo_of_holds (opened_holds numbered (recoverOpenFile_clean _)) space
  · by_cases short : rest.length < 4
    · -- A torn header stays in the file and reading stops at it.
      refine iff_of_false ?_ (by omega)
      exact not_recoversTo numbered (recoverOpenFile_short _ short)
        (readFrames_fails _ (readFrames_short (by simpa using empty) short))
    · by_cases zero : wholeEntries log.current crash.kept = log.current ∧
          crc32c (framesOf log.current) = 0
      · -- A checksum of zero reads as a frame without an entry.
        obtain ⟨all, crcZero⟩ := zero
        have restZero : rest = [0, 0, 0, 0] := by
          cases remainder with
          | inFrame next later kept split _ =>
              rw [all] at split
              simp at split
          | inSuffix kept _ =>
              have suffix : crash.suffix (framesOf log.current) = [0, 0, 0, 0] := by
                rw [suffix_present (by rw [List.length_take] at short; omega), crcSuffix, crcZero]
                rfl
              rw [suffix] at short ⊢
              refine List.take_of_length_le ?_
              rw [List.length_take] at short
              simpa using short
        subst restZero
        refine iff_of_false ?_ (by simp [all, crcZero])
        exact not_recoversTo numbered (recoverOpenFile_zero _) (readFrames_fails _ readFrames_zero)
      · have torn : rest.length < 4 + fromBeBytes (rest.take 4) := by
          refine remainder_torn remainder (by omega) fun all present => ?_
          have nonzero : crc32c (framesOf log.current) ≠ 0 := fun crcZero => zero ⟨all, crcZero⟩
          exact suffix_announces nonzero present
        refine iff_of_true ?_ (.inr ⟨by omega, zero⟩)
        exact recoversTo_of_holds (opened_holds numbered (recoverOpenFile_torn _ (by omega) torn))
          space

/-- Any sequence of appends succeeds, and a crash afterwards loses exactly the torn frame if and
only if it is a clean cut. The directory holds fewer than `2 ^ 32` files. -/
theorem fileWalStore_recovers_iff (bounds : Bounds) (entries further : List WalEntry)
    (crash : Crash)
    (space : (((SegmentedLog.empty.pushAll bounds entries).cut crash.kept).pushAll bounds
      further).closed.length < 2 ^ 32) :
    ∃ fresh created store files, openStore ∅ = .ok (fresh, created) ∧
      appendAll bounds entries fresh created = .ok (store, files) ∧
      (RecoversTo bounds ((SegmentedLog.empty.pushAll bounds entries).cut crash.kept)
          (crashFiles crash store files) further ↔
        CleanCut (SegmentedLog.empty.pushAll bounds entries) crash) := by
  have early : (SegmentedLog.empty.pushAll bounds entries).closed.length < 2 ^ 32 :=
    lt_of_le_of_lt (pushAll_closed_length bounds further (SegmentedLog.cut _ crash.kept)) space
  obtain ⟨store, files, appended, holds⟩ := appendAll_holds holds_empty entries early
  exact ⟨_, _, store, files, openStore_empty, appended,
    crashFiles_recoversTo_iff holds crash further space⟩

def sampleImport : WalEntry :=
  .seedEpochConsensusInputsImported (Vector.replicate 32 1) (Vector.replicate 32 2) 576

/-- Ten bytes of the frame survive: its header and part of the entry. -/
theorem fileWalStore_recovers_torn_entry :
    ∃ fresh created store files, openStore ∅ = .ok (fresh, created) ∧
      appendAll defaultBounds [sampleImport] fresh created = .ok (store, files) ∧
      RecoversTo defaultBounds .empty (crashFiles ⟨10, false⟩ store files) [sampleImport] := by
  obtain ⟨fresh, created, store, files, opened, appended, recovers⟩ :=
    fileWalStore_recovers_iff defaultBounds [sampleImport] [sampleImport] ⟨10, false⟩
      (by decide)
  have clean : CleanCut (SegmentedLog.empty.pushAll defaultBounds [sampleImport]) ⟨10, false⟩ := by
    unfold CleanCut
    decide
  have cut : (SegmentedLog.empty.pushAll defaultBounds [sampleImport]).cut 10 = .empty := by
    rfl
  exact ⟨fresh, created, store, files, opened, appended, cut ▸ recovers.mpr clean⟩

/-- Two bytes of the frame survive: recovery keeps them and reading fails on them. -/
theorem fileWalStore_keeps_torn_header :
    ∃ fresh created store files reopened recovered, openStore ∅ = .ok (fresh, created) ∧
      appendAll defaultBounds [sampleImport] fresh created = .ok (store, files) ∧
      openStore (crashFiles ⟨2, false⟩ store files) = .ok (reopened, recovered) ∧
      readAll reopened recovered = .error (.io .unexpectedEof) := by
  refine ⟨⟨0, 0, 0⟩, (∅ : Files).insert 0 [], ⟨0, 1, (frame sampleImport).length⟩,
    ((∅ : Files).insert 0 []).insert 0 (frame sampleImport), ⟨0, 0, 0⟩,
    (∅ : Files).insert 0 [0, 0], openStore_empty, ?_, ?_, ?_⟩ <;> decide +kernel

end Ade.Proof.Wal
