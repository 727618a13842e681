import Ade.Library.Except
import Ade.Proof.Wal.Frames

namespace Ade.Proof.Wal
open Std (ExtTreeMap)
open Library Ade.Wal

/-! ## Directories without gaps -/

/-- File `i` of the directory holds the `i`-th of the given contents, and there are no others. -/
structure Numbered (files : Files) (contents : List Bytes) : Prop where
  fits : contents.length ≤ 2 ^ 32
  lookup : ∀ index : UInt32, files[index]? = contents[index.toNat]?

namespace Numbered

variable {files : Files} {contents earlier : List Bytes} {index : UInt32} {old : Bytes}

theorem keys (numbered : Numbered files contents) :
    files.keys = (List.range contents.length).map UInt32.ofNat := by
  have bound := numbered.fits
  refine BTreeMap.keys_eq_of_ordered ?_ fun index => ?_
  · refine List.pairwise_map.mpr (List.pairwise_lt_range.imp_of_mem fun {i j} iIn jIn less => ?_)
    rw [List.mem_range] at iIn jIn
    rw [Std.compare_eq_lt, UInt32.lt_iff_toNat_lt, UInt32.toNat_ofNat', UInt32.toNat_ofNat',
      Nat.mod_eq_of_lt (by omega), Nat.mod_eq_of_lt (by omega)]
    exact less
  · rw [ExtTreeMap.mem_iff_isSome_getElem?, numbered.lookup, isSome_getElem?, List.mem_map]
    constructor
    · intro present
      exact ⟨index.toNat, List.mem_range.mpr present, by simp⟩
    · rintro ⟨i, member, rfl⟩
      rw [List.mem_range] at member
      rw [UInt32.toNat_ofNat', Nat.mod_eq_of_lt (by omega)]
      exact member

theorem replaceLast (numbered : Numbered files (earlier ++ [old]))
    (last : index.toNat = earlier.length) (new : Bytes) :
    Numbered (files.insert index new) (earlier ++ [new]) := by
  refine ⟨by simpa using numbered.fits, fun other => ?_⟩
  rw [BTreeMap.getElem?_insert, numbered.lookup]
  by_cases same : index = other
  · subst same
    simp [last]
  · have different : other.toNat ≠ earlier.length := by
      intro equal
      exact same (UInt32.toNat_inj.mp (last.trans equal.symm))
    rw [if_neg same, List.getElem?_append, List.getElem?_append]
    split_ifs with inside
    · rfl
    · have distance : 1 ≤ other.toNat - earlier.length := by omega
      rw [List.getElem?_eq_none (by simpa using distance),
        List.getElem?_eq_none (by simpa using distance)]

theorem addLast (numbered : Numbered files contents) (next : index.toNat = contents.length)
    (new : Bytes) : Numbered (files.insert index new) (contents ++ [new]) := by
  have bound := index.toNat_lt
  refine ⟨by simp only [List.length_append, List.length_singleton]; omega, fun other => ?_⟩
  rw [BTreeMap.getElem?_insert, numbered.lookup]
  by_cases same : index = other
  · subst same
    simp [next]
  · have different : other.toNat ≠ contents.length := by
      intro equal
      exact same (UInt32.toNat_inj.mp (next.trans equal.symm))
    rw [if_neg same, List.getElem?_append]
    split_ifs with inside
    · rfl
    · have distance : 1 ≤ other.toNat - contents.length := by omega
      rw [List.getElem?_eq_none (by omega), List.getElem?_eq_none (by simpa using distance)]

theorem readFile_last (numbered : Numbered files (earlier ++ [old]))
    (last : index.toNat = earlier.length) : readFile files index = .ok old := by
  simp [readFile, numbered.lookup, last]

end Numbered

/-! ## Sealed files -/

def sealedFile (entries : List WalEntry) : Bytes :=
  framesOf entries ++ crcSuffix (framesOf entries)

@[simp] theorem length_crcSuffix (bytes : Bytes) : (crcSuffix bytes).length = 4 :=
  length_toBeBytes ..

theorem fromBeBytes_crcSuffix (bytes : Bytes) :
    fromBeBytes (crcSuffix bytes) = (crc32c bytes).toNat := by
  rw [crcSuffix, fromBeBytes_toBeBytes]
  exact Nat.mod_eq_of_lt (crc32c bytes).toNat_lt

theorem verifySealedCrc_sealedFile {files : Files} {index : UInt32} {entries : List WalEntry}
    (present : files[index]? = some (sealedFile entries)) :
    verifySealedCrc files index = .ok () := by
  have bodyLen : (sealedFile entries).length - 4 = (framesOf entries).length := by
    simp [sealedFile]
  have long : ¬ (sealedFile entries).length < 4 := by simp [sealedFile]
  have body : (sealedFile entries).take (framesOf entries).length = framesOf entries :=
    List.take_left
  have suffix : (sealedFile entries).drop (framesOf entries).length =
      crcSuffix (framesOf entries) := List.drop_left
  simp [verifySealedCrc, readFile, present, long, bodyLen, body, suffix, fromBeBytes_crcSuffix,
    bind, Except.bind, pure, Except.pure]

/-! ## Opening and reading a directory of sealed files and one open file -/

section Directory

variable {files : Files} {closed : List (List WalEntry)} {openBytes : Bytes}

theorem sealed_lookup (numbered : Numbered files (closed.map sealedFile ++ [openBytes])) {i : Nat}
    (inside : i < closed.length) :
    files[UInt32.ofNat i]? = some (sealedFile closed[i]) := by
  have bound := numbered.fits
  simp only [List.length_append, List.length_map, List.length_singleton] at bound
  rw [numbered.lookup, UInt32.toNat_ofNat', Nat.mod_eq_of_lt (by omega),
    List.getElem?_append_left (by simpa using inside)]
  simp [inside]

theorem toNat_openIndex (numbered : Numbered files (closed.map sealedFile ++ [openBytes])) :
    (UInt32.ofNat closed.length).toNat = closed.length := by
  have bound := numbered.fits
  simp only [List.length_append, List.length_map, List.length_singleton] at bound
  rw [UInt32.toNat_ofNat', Nat.mod_eq_of_lt (by omega)]

theorem directory_keys (numbered : Numbered files (closed.map sealedFile ++ [openBytes])) :
    files.keys = (List.range closed.length).map UInt32.ofNat ++ [UInt32.ofNat closed.length] := by
  rw [numbered.keys, List.length_append, List.length_map, List.length_singleton, List.range_succ,
    List.map_append]
  rfl

theorem openStore_directory (numbered : Numbered files (closed.map sealedFile ++ [openBytes])) :
    openStore files = .ok
      (⟨UInt32.ofNat closed.length, (recoverOpenFile openBytes).1.entryCount,
        (recoverOpenFile openBytes).1.byteCount⟩,
        files.insert (UInt32.ofNat closed.length) (recoverOpenFile openBytes).2) := by
  have checked : ((List.range closed.length).map UInt32.ofNat).forM (verifySealedCrc files) =
      .ok () := by
    refine forM_ok fun index member => ?_
    obtain ⟨i, inside, rfl⟩ := List.mem_map.mp member
    exact verifySealedCrc_sealedFile (sealed_lookup numbered (List.mem_range.mp inside))
  have opened : readFile files (UInt32.ofNat closed.length) = .ok openBytes :=
    numbered.readFile_last (by rw [toNat_openIndex numbered, List.length_map])
  rw [openStore, directory_keys numbered]
  simp only [List.getLast?_append, List.getLast?_singleton, Option.some_or, List.dropLast_concat,
    checked, opened]
  rfl

theorem readFileEntries_sealed {store : FileWalStore}
    (numbered : Numbered files (closed.map sealedFile ++ [openBytes]))
    (current : store.currentFileIndex.toNat = closed.length) {i : Nat} (inside : i < closed.length) :
    readFileEntries store files (UInt32.ofNat i) = .ok closed[i] := by
  have bound := numbered.fits
  simp only [List.length_append, List.length_map, List.length_singleton] at bound
  have other : UInt32.ofNat i ≠ store.currentFileIndex := by
    intro equal
    have sameIndex := congrArg UInt32.toNat equal
    rw [UInt32.toNat_ofNat', Nat.mod_eq_of_lt (by omega), current] at sameIndex
    omega
  have bodyEnd : (sealedFile closed[i]).length - 4 = (framesOf closed[i]).length := by
    simp [sealedFile]
  simp only [readFileEntries, readFile, sealed_lookup numbered inside, if_neg other]
  change readFrames (sealedFile closed[i]) 0 ((sealedFile closed[i]).length - 4) = .ok closed[i]
  rw [bodyEnd]
  exact readFrames_whole closed[i] _

theorem readAll_directory {store : FileWalStore}
    (numbered : Numbered files (closed.map sealedFile ++ [openBytes]))
    (current : store.currentFileIndex.toNat = closed.length) :
    readAll store files =
      (readFrames openBytes 0 openBytes.length).map (fun later => closed.flatten ++ later) := by
  have sealedFiles : ((List.range closed.length).map UInt32.ofNat).mapM
      (readFileEntries store files) = .ok closed := by
    have each := mapM_ok (fun index => closed[index.toNat]?.getD [])
      ((List.range closed.length).map UInt32.ofNat) (f := readFileEntries store files) (by
        intro index member
        obtain ⟨i, inside, rfl⟩ := List.mem_map.mp member
        rw [List.mem_range] at inside
        have bound := numbered.fits
        simp only [List.length_append, List.length_map, List.length_singleton] at bound
        rw [readFileEntries_sealed numbered current inside, UInt32.toNat_ofNat',
          Nat.mod_eq_of_lt (by omega)]
        simp [inside])
    rw [each]
    congr 1
    refine List.ext_getElem (by simp) fun i left right => ?_
    have bound := numbered.fits
    simp only [List.length_append, List.length_map, List.length_singleton] at bound
    have small : i % 2 ^ 32 = i := Nat.mod_eq_of_lt (by omega)
    rw [List.getElem_map, List.getElem_map, List.getElem_range, UInt32.toNat_ofNat', small,
      List.getElem?_eq_getElem right, Option.getD_some]
  have same : store.currentFileIndex = UInt32.ofNat closed.length :=
    UInt32.toNat_inj.mp (current.trans (toNat_openIndex numbered).symm)
  have openFile : readFileEntries store files (UInt32.ofNat closed.length) =
      readFrames openBytes 0 openBytes.length := by
    have opened : readFile files (UInt32.ofNat closed.length) = .ok openBytes :=
      numbered.readFile_last (by rw [toNat_openIndex numbered, List.length_map])
    simp only [readFileEntries, opened, same, if_true]
    rfl
  rw [readAll, directory_keys numbered, List.mapM_append, sealedFiles]
  simp only [List.mapM_cons, List.mapM_nil, openFile]
  cases readFrames openBytes 0 openBytes.length with
  | error failure => rfl
  | ok later => simp [bind, Except.bind, pure, Except.pure, Except.map]

end Directory

end Ade.Proof.Wal
