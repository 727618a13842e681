import Ade.Proof.Wal.Entry
import Ade.Wal.FileStore

/-! The three walks over frames agree on where the last whole frame ends. -/

namespace Ade.Proof.Wal
open Library Ade.Wal

theorem length_frame (entry : WalEntry) :
    (frame entry).length = 4 + (encodeWalEntry entry).length :=
  length_lengthPrefixed

@[simp] theorem framesOf_nil : framesOf [] = [] := rfl

@[simp] theorem framesOf_cons (entry : WalEntry) (entries : List WalEntry) :
    framesOf (entry :: entries) = frame entry ++ framesOf entries := rfl

@[simp] theorem framesOf_append (left right : List WalEntry) :
    framesOf (left ++ right) = framesOf left ++ framesOf right := List.flatMap_append

theorem recoverWalk_frame (entry : WalEntry) (rest : Bytes) (count pos : Nat) :
    recoverWalk (frame entry ++ rest) count pos =
      recoverWalk rest (count + 1) (pos + (frame entry).length) := by
  have header := fromBeBytes_header (length_encodeWalEntry entry) rest
  have whole : 4 + (encodeWalEntry entry).length ≤ (frame entry ++ rest).length := by
    simp [length_frame]
  rw [recoverWalk, frame, header, if_pos (by rw [frame] at whole; omega),
    if_neg (by rw [frame] at whole; omega), drop_lengthPrefixed, length_lengthPrefixed,
    Nat.add_assoc]

theorem recoverWalk_frames (entries : List WalEntry) (rest : Bytes) (count pos : Nat) :
    recoverWalk (framesOf entries ++ rest) count pos =
      recoverWalk rest (count + entries.length) (pos + (framesOf entries).length) := by
  induction entries generalizing count pos with
  | nil => simp
  | cons entry entries ih =>
      rw [framesOf_cons, List.append_assoc, recoverWalk_frame, ih, List.length_append,
        List.length_cons]
      congr 1 <;> omega

theorem recoverWalk_short (rest : Bytes) (short : rest.length < 4) (count pos : Nat) :
    recoverWalk rest count pos = ⟨count, pos, false⟩ := by
  rw [recoverWalk, if_neg (by omega)]

theorem recoverWalk_torn {rest : Bytes} (header : 4 ≤ rest.length)
    (torn : rest.length < 4 + fromBeBytes (rest.take 4)) (count pos : Nat) :
    recoverWalk rest count pos = ⟨count, pos, true⟩ := by
  rw [recoverWalk, if_pos header]
  simp only [gt_iff_lt, torn, if_true]

theorem readFrames_frame (entry : WalEntry) (rest : Bytes) {pos bodyEnd : Nat}
    (inside : pos < bodyEnd) :
    readFrames (frame entry ++ rest) pos bodyEnd = do
      let later ← readFrames rest (pos + (frame entry).length) bodyEnd
      return entry :: later := by
  have header := fromBeBytes_header (length_encodeWalEntry entry) rest
  have whole : 4 + (encodeWalEntry entry).length ≤ (lengthPrefixed 4 (encodeWalEntry entry) ++
      rest).length := by
    simp
  rw [readFrames, frame, if_pos inside, header, if_pos (by omega), if_pos whole,
    take_drop_lengthPrefixed, drop_lengthPrefixed, length_lengthPrefixed, Nat.add_assoc,
    decodeWalEntry_encodeWalEntry]
  rfl

theorem readFrames_frames (entries : List WalEntry) (rest : Bytes) {pos bodyEnd : Nat}
    (inside : pos + (framesOf entries).length ≤ bodyEnd) :
    readFrames (framesOf entries ++ rest) pos bodyEnd = do
      let later ← readFrames rest (pos + (framesOf entries).length) bodyEnd
      return entries ++ later := by
  induction entries generalizing pos with
  | nil =>
      simp only [framesOf_nil, List.nil_append, List.length_nil, Nat.add_zero, bind_pure]
  | cons entry entries ih =>
      rw [framesOf_cons, List.length_append, length_frame] at inside
      have tail : pos + (frame entry).length + (framesOf entries).length ≤ bodyEnd := by
        rw [length_frame]
        omega
      rw [framesOf_cons, List.append_assoc, readFrames_frame entry _ (by omega), ih tail,
        List.length_append, Nat.add_assoc]
      simp

theorem readFrames_end (rest : Bytes) (pos : Nat) : readFrames rest pos pos = .ok [] := by
  rw [readFrames, if_neg (by omega)]
  rfl

/-- A file that holds whole frames, up to its body end, reads back as its entries. -/
theorem readFrames_whole (entries : List WalEntry) (suffix : Bytes) :
    readFrames (framesOf entries ++ suffix) 0 (framesOf entries).length = .ok entries := by
  rw [readFrames_frames entries suffix (by omega), Nat.zero_add, readFrames_end]
  simp [bind, Except.bind, pure, Except.pure]

/-! ## Where a cut falls -/

/-- What a cut leaves behind the last whole frame. -/
inductive Remainder (suffix : Bytes) (entries whole : List WalEntry) : Bytes → Prop
  | inFrame (next : WalEntry) (later : List WalEntry) (kept : Nat)
      (split : entries = whole ++ next :: later) (short : kept < (frame next).length) :
      Remainder suffix entries whole ((frame next).take kept)
  | inSuffix (kept : Nat) (all : whole = entries) : Remainder suffix entries whole (suffix.take kept)

theorem take_frames (suffix : Bytes) (entries : List WalEntry) (kept : Nat) :
    ∃ rest, (framesOf entries ++ suffix).take kept = framesOf (wholeEntries entries kept) ++ rest ∧
      rest.length = tornBytes suffix.length entries kept ∧
      Remainder suffix entries (wholeEntries entries kept) rest := by
  induction entries generalizing kept with
  | nil =>
      exact ⟨suffix.take kept, rfl, by simp [tornBytes], .inSuffix kept rfl⟩
  | cons entry entries ih =>
      by_cases fits : (frame entry).length ≤ kept
      · obtain ⟨rest, taken, length, remainder⟩ := ih (kept - (frame entry).length)
        refine ⟨rest, ?_, by simp [tornBytes, fits, length], ?_⟩
        · rw [framesOf_cons, List.append_assoc, List.take_append,
            List.take_of_length_le fits, taken, wholeEntries, if_pos fits, framesOf_cons,
            List.append_assoc]
        · rw [wholeEntries, if_pos fits]
          cases remainder with
          | inFrame next later kept split short =>
              exact .inFrame next later kept (congrArg (entry :: ·) split) short
          | inSuffix kept all => exact .inSuffix kept (congrArg (entry :: ·) all)
      · refine ⟨(frame entry).take kept, ?_, by simp [tornBytes, fits]; omega, ?_⟩
        · rw [framesOf_cons, List.append_assoc, List.take_append_of_le_length (by omega),
            wholeEntries, if_neg fits]
          rfl
        · rw [wholeEntries, if_neg fits]
          exact .inFrame entry entries kept rfl (by omega)

end Ade.Proof.Wal
