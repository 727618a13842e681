import Ade.Ledger.RequiredSigners
import Ade.Proof.Codec.Spans

/-!
# Certificates as the walkers and the decoder see them

The decoder looks at the declared length of a certificate only when it skips the certificate again;
the walker counts the elements off as it goes. `Closes` is what the decoder finds behind a
certificate, and no field that it reads stands there: an array that declares too few elements for its
fields would put one of them where the next certificate must begin.
-/

namespace Ade.Proof.Ledger
open Library Library.Cursor Ade.Codec Ade.Proof.Codec
open Ade.Ledger hiding Coin

variable {data : Bytes} {field : RequiredSignerField} {start middle after : Nat}

/-! ## Adapters -/

theorem failingAt_ok {α δ : Type} {failure : Nat → δ} {read : Read α} {value : α}
    (ran : read.runAt start = (.ok value, after)) :
    (failingAt failure read).runAt start = (.ok value, after) := by
  unfold failingAt
  rw [runAt_ofRun, ran]
  rfl

theorem inField_ok {α : Type} {read : Read α} {value : α}
    (ran : read.runAt start = (.ok value, after)) :
    (inField field read).runAt start = (.ok value, after) :=
  failingAt_ok ran

theorem times_skip {count : Nat} (items : Spans data count start after) :
    ∃ ranges, (times (inField field (skip data)) count).runAt start = (.ok ranges, after) := by
  induction count generalizing start with
  | zero =>
      rw [spans_zero] at items
      exact ⟨[], by rw [items]; rfl⟩
  | succ count ih =>
      obtain ⟨middle, item, rest⟩ := items.head
      obtain ⟨ranges, ran⟩ := ih rest
      refine ⟨(start, middle) :: ranges, ?_⟩
      rw [times, runAt_bind_ok (inField_ok item.skip), runAt_bind_ok ran]
      rfl

theorem drainArrayTail_definite {consumed rest : Nat} {count : UInt64} {width : IntWidth}
    (total : count.toNat = consumed + rest) (items : Spans data rest start after) :
    (drainArrayTail data field consumed (.definite count width)).runAt start = (.ok (), after) := by
  obtain ⟨ranges, ran⟩ := @times_skip data field _ _ _ items
  dsimp only [drainArrayTail]
  rw [if_neg (by omega), total, Nat.add_sub_cancel_left]
  rw [runAt_bind_ok ran]
  rfl

/-! ## Arrays

An array is walked as it is read, if its elements are. The walk of an element may need to know that
another element, a break byte or the end of the array follows: `ends` holds there. -/

section
variable {α β δ : Type} {failure : Nat → δ} {element : Read α} {process : Cursor δ β} {f : α → β}
  {ends : Nat → Prop}
  (walks : ∀ {start after : Nat} {value : α}, element.runAt start = (.ok value, after) → ends after →
    process.runAt start = (.ok (f value), after))
  (begins : ∀ {start after : Nat} {value : α}, element.runAt start = (.ok value, after) → ends start)
include walks begins

theorem times_walk {count : Nat} {values : List α}
    (ran : (times element count).runAt start = (.ok values, after)) (last : ends after) :
    (times process count).runAt start = (.ok (values.map f), after) := by
  induction count generalizing start values with
  | zero =>
      cases ran
      rfl
  | succ count ih =>
      obtain ⟨first, middle, head, ran⟩ := of_runAt_bind_ok ran
      obtain ⟨rest, final, tail, ran⟩ := of_runAt_bind_ok ran
      cases ran
      have closed : ends middle := by
        cases count with
        | zero =>
            cases tail
            exact last
        | succ count =>
            obtain ⟨second, later, next, -⟩ := of_runAt_bind_ok tail
            exact begins next
      rw [times, runAt_bind_ok (walks head closed), runAt_bind_ok (ih tail)]
      rfl

theorem untilBreak_walk (broke : ∀ {offset : Nat}, peekByte data offset = .ok breakByte → ends offset)
    {left : Nat} {values : List α}
    (ran : (untilBreak data element left).runAt start = (.ok values, after)) :
    (iterateUntilBreak failure data process left).runAt start = (.ok (values.map f), after + 1) := by
  induction left generalizing start values with
  | zero => cases ran
  | succ left ih =>
      obtain ⟨broken, middle, looked, ran⟩ := of_runAt_bind_ok ran
      obtain ⟨rfl, -⟩ := isBreak_ok looked
      rw [iterateUntilBreak, runAt_bind_ok (failingAt_ok looked)]
      cases broken with
      | true =>
          cases ran
          rfl
      | false =>
          obtain ⟨first, next, head, ran⟩ := of_runAt_bind_ok ran
          obtain ⟨rest, final, tail, ran⟩ := of_runAt_bind_ok ran
          cases ran
          have closed : ends next := by
            cases left with
            | zero => cases tail
            | succ left =>
                obtain ⟨broken, position, looked, tail⟩ := of_runAt_bind_ok tail
                obtain ⟨rfl, byte, peeked, known⟩ := isBreak_ok looked
                cases broken with
                | true => exact broke (by rw [peeked, known.mp rfl])
                | false =>
                    obtain ⟨second, later, next, -⟩ := of_runAt_bind_ok tail
                    exact begins next
          rw [if_neg (by decide), runAt_bind_ok (walks head closed), runAt_bind_ok (ih tail)]
          rfl

theorem readArray_walk (broke : ∀ {offset : Nat}, peekByte data offset = .ok breakByte → ends offset)
    {values : List α} (ran : (readArray data element).runAt start = (.ok values, after))
    (last : ends after) :
    ∃ encoding inside, (readArrayHeader data).runAt start = (.ok encoding, inside) ∧
      (iterate failure data process encoding).runAt inside = (.ok (values.map f), after) := by
  obtain ⟨encoding, inside, opened, ran⟩ := of_runAt_bind_ok ran
  refine ⟨encoding, inside, opened, ?_⟩
  cases encoding with
  | definite count width => exact times_walk walks begins ran last
  | indefinite =>
      obtain ⟨elements, broke', taken, ran⟩ := of_runAt_bind_ok ran
      rw [runAt_bind_ok (runAt_modify _ _)] at ran
      cases ran
      exact untilBreak_walk walks begins broke taken

end

/-! ## Fields -/

theorem expectPair_ok {α : Type} {detail : String} {next : Read α} {encoding : ContainerEncoding}
    {value : α} (ran : (expectPair detail next encoding).runAt start = (.ok value, after)) :
    (∃ width, encoding = .definite 2 width) ∧ next.runAt start = (.ok value, after) := by
  cases encoding with
  | indefinite => cases ran
  | definite count width =>
      dsimp only [expectPair] at ran
      split_ifs at ran with two
      · subst two
        exact ⟨⟨width, rfl⟩, ran⟩
      · cases ran

theorem expectNonEmpty_ok {α : Type} {detail : String} {next : Read α} {encoding : ContainerEncoding}
    {value : α} (ran : (expectNonEmpty detail next encoding).runAt start = (.ok value, after)) :
    (∃ count width, encoding = .definite count width ∧ 1 ≤ count.toNat) ∧
      next.runAt start = (.ok value, after) := by
  cases encoding with
  | indefinite => cases ran
  | definite count width =>
      dsimp only [expectNonEmpty] at ran
      split_ifs at ran with some_
      · exact ⟨⟨count, width, rfl, UInt64.le_iff_toNat_le.mp some_⟩, ran⟩
      · cases ran

theorem readHash_ok {size : Nat} {detail : String} {hash : Vector UInt8 size}
    (ran : (readHash size detail data).runAt start = (.ok hash, after)) :
    ∃ bytes width, (readBytes data).runAt start = (.ok (bytes, width), after) ∧
      ∃ sized : bytes.toArray.size = size, hash = ⟨bytes.toArray, sized⟩ := by
  obtain ⟨⟨bytes, width⟩, middle, read, ran⟩ := of_runAt_bind_ok ran
  dsimp only at ran
  split_ifs at ran with sized
  · cases ran
    exact ⟨bytes, width, read, sized, rfl⟩
  · cases ran

theorem spans_hash {size : Nat} {detail : String} {hash : Vector UInt8 size}
    (ran : (readHash size detail data).runAt start = (.ok hash, after)) : Spans data 1 start after := by
  obtain ⟨bytes, width, read, -⟩ := readHash_ok ran
  exact spans_bytes read

theorem hasMajor_hash {size : Nat} {detail : String} {hash : Vector UInt8 size}
    (ran : (readHash size detail data).runAt start = (.ok hash, after)) :
    HasMajor data majorBytes start := by
  obtain ⟨bytes, width, read, -⟩ := readHash_ok ran
  exact hasMajor_readBytes read

theorem readRawHash28_ok {hash : Hash28}
    (ran : (readCertHash28 data).runAt start = (.ok hash, after)) :
    (readRawHash28 data field).runAt start = (.ok hash, after) := by
  obtain ⟨bytes, width, read, sized, rfl⟩ := readHash_ok ran
  unfold readRawHash28
  rw [runAt_bind_ok (inField_ok read)]
  dsimp only
  rw [dif_pos sized]
  rfl

/-- A credential is a pair, its kind and its hash. -/
structure CredentialAt (data : Bytes) (start after : Nat) (credential : StakeCredential) : Prop where
  of_parts ::
  parts : ∃ width inside kind kindWidth middle hash,
    (readArrayHeader data).runAt start = (.ok (.definite 2 width), inside) ∧
      (readUint data).runAt inside = (.ok (kind, kindWidth), middle) ∧
      (readCertHash28 data).runAt middle = (.ok hash, after) ∧
      (kind = 0 ∧ credential = .keyHash hash ∨ kind = 1 ∧ credential = .scriptHash hash)

theorem credentialAt_of_decode {credential : StakeCredential}
    (ran : (decodeCertCredential data).runAt start = (.ok credential, after)) :
    CredentialAt data start after credential := by
  obtain ⟨encoding, inside, opened, paired⟩ := of_runAt_bind_ok ran
  obtain ⟨⟨width, rfl⟩, fields⟩ := expectPair_ok paired
  rw [runAt_bind_ok (runAt_get _)] at fields
  obtain ⟨⟨kind, kindWidth⟩, middle, told, ran⟩ := of_runAt_bind_ok fields
  obtain ⟨hash, final, read, ran⟩ := of_runAt_bind_ok ran
  split_ifs at ran with key script
  · cases ran
    exact ⟨width, inside, kind, kindWidth, middle, hash, opened, told, read, .inl ⟨key, rfl⟩⟩
  · cases ran
    exact ⟨width, inside, kind, kindWidth, middle, hash, opened, told, read, .inr ⟨script, rfl⟩⟩
  · cases ran

namespace CredentialAt

variable {credential : StakeCredential}

theorem spans (found : CredentialAt data start after credential) : Spans data 1 start after := by
  obtain ⟨width, inside, kind, kindWidth, middle, hash, opened, told, read, -⟩ := found
  rw [spans_array opened]
  exact (spans_uint told).append (spans_hash read)

theorem walk (found : CredentialAt data start after credential) :
    (readCredential data).runAt start = (.ok credential.credential, after) := by
  obtain ⟨width, inside, kind, kindWidth, middle, hash, opened, told, read, known⟩ := found
  have drained : (drainArrayTail data .certificates 2 (.definite 2 width)).runAt after = (.ok (), after) :=
    drainArrayTail_definite rfl (spans_zero.mpr rfl)
  have raw : (readRawHash28 data .certificates).runAt middle = (.ok hash, after) :=
    readRawHash28_ok read
  have key : ((.key <$> readRawHash28 data .certificates : SignerRead Credential)).runAt middle =
      (.ok (.key hash), after) := by rw [runAt_map, raw]; rfl
  have script : ((.script <$> readRawHash28 data .certificates : SignerRead Credential)).runAt middle =
      (.ok (.script hash), after) := by rw [runAt_map, raw]; rfl
  unfold readCredential
  rw [runAt_bind_ok (inField_ok opened), runAt_bind_ok (inField_ok told)]
  dsimp only
  rcases known with ⟨rfl, rfl⟩ | ⟨rfl, rfl⟩
  · rw [if_pos rfl, runAt_bind_ok key, runAt_bind_ok drained]
    rfl
  · rw [if_neg (by decide), if_pos rfl, runAt_bind_ok script, runAt_bind_ok drained]
    rfl

end CredentialAt

/-! ## Behind a certificate -/

theorem decodeSingleCert_ok {cert : ConwayCert}
    (ran : (decodeSingleCert data).runAt start = (.ok cert, after)) :
    ∃ count width inside tag tagWidth middle final,
      (readArrayHeader data).runAt start = (.ok (.definite count width), inside) ∧ 1 ≤ count.toNat ∧
      (readUint data).runAt inside = (.ok (tag, tagWidth), middle) ∧
      (decodeCertFields data inside tag).runAt middle = (.ok cert, final) ∧
      Spans data count.toNat inside after := by
  unfold decodeSingleCert at ran
  rw [runAt_bind_ok (runAt_get _)] at ran
  obtain ⟨encoding, inside, opened, ran⟩ := of_runAt_bind_ok ran
  obtain ⟨⟨count, width, rfl, positive⟩, fields⟩ := expectNonEmpty_ok ran
  rw [runAt_bind_ok (runAt_get _)] at fields
  obtain ⟨⟨tag, tagWidth⟩, middle, told, fields⟩ := of_runAt_bind_ok fields
  obtain ⟨found, final, decoded, fields⟩ := of_runAt_bind_ok fields
  rw [runAt_bind_ok (runAt_set _ _)] at fields
  obtain ⟨range, last, skipped, fields⟩ := of_runAt_bind_ok fields
  cases fields
  exact ⟨count, width, inside, tag, tagWidth, middle, final, opened, positive, told, decoded,
    (spans_array opened).mp (spans_of_skip skipped)⟩

/-- The certificates go on, or they end. -/
inductive Closes (data : Bytes) (offset : Nat) : Prop
  | ended (nothing : data[offset]? = none)
  | broken (broke : peekByte data offset = .ok breakByte)
  | next {cert : ConwayCert} {after : Nat}
      (decoded : (decodeSingleCert data).runAt offset = (.ok cert, after))

/-- What is no array and no simple value stands at no such place. -/
theorem not_closes {major : Nat} (first : HasMajor data major start) (array : major ≠ majorArray)
    (simple : major ≠ majorSimple) : ¬ Closes data start := by
  rintro (nothing | broke | ⟨decoded⟩)
  · obtain ⟨byte, found, -⟩ := first
    rw [nothing] at found
    cases found
  · exact first.not_break simple broke
  · obtain ⟨count, width, inside, tag, tagWidth, middle, final, opened, -⟩ := decodeSingleCert_ok decoded
    exact array (first.unique (hasMajor_readArrayHeader opened))

/-- The array at the offset is not closed by a certificate, unless it is one. -/
theorem not_closes_array {encoding : ContainerEncoding}
    (opened : (readArrayHeader data).runAt start = (.ok encoding, middle))
    (other : ∀ cert after, (decodeSingleCert data).runAt start ≠ (.ok cert, after)) :
    ¬ Closes data start := by
  have first := hasMajor_readArrayHeader opened
  rintro (nothing | broke | ⟨decoded⟩)
  · obtain ⟨byte, found, -⟩ := first
    rw [nothing] at found
    cases found
  · exact first.not_break (by decide) broke
  · exact other _ _ decoded

theorem credential_of_fields {tagOffset : Nat} {tag : UInt64} {cert : ConwayCert}
    (small : tag = 0 ∨ tag = 1)
    (decoded : (decodeCertFields data tagOffset tag).runAt start = (.ok cert, after)) :
    ∃ credential final, (decodeCertCredential data).runAt start = (.ok credential, final) := by
  unfold decodeCertFields at decoded
  rcases small with rfl | rfl
  · rw [if_pos rfl] at decoded
    obtain ⟨credential, final, found, -⟩ := of_runAt_bind_ok decoded
    exact ⟨credential, final, found⟩
  · rw [if_neg (by decide), if_pos rfl] at decoded
    obtain ⟨credential, final, found, -⟩ := of_runAt_bind_ok decoded
    exact ⟨credential, final, found⟩

/-- As a certificate, a credential would have to hold another credential in the place of its hash. -/
theorem CredentialAt.not_closes {credential : StakeCredential}
    (found : CredentialAt data start after credential) : ¬ Closes data start := by
  obtain ⟨width, inside, kind, kindWidth, middle, hash, opened, told, read, known⟩ := found
  apply not_closes_array opened
  intro cert later decoded
  obtain ⟨count, width', inside', tag, tagWidth, middle', final, opened', -, told', fields, -⟩ :=
    decodeSingleCert_ok decoded
  cases opened.symm.trans opened'
  cases told.symm.trans told'
  have small : kind = 0 ∨ kind = 1 := known.imp And.left And.left
  obtain ⟨inner, final, credential⟩ := credential_of_fields small fields
  obtain ⟨⟨_, _, _, _, _, _, innerOpened, -⟩⟩ := credentialAt_of_decode credential
  exact absurd ((hasMajor_hash read).unique (hasMajor_readArrayHeader innerOpened)) (by decide)

/-! ## Pool registrations -/

theorem skipOptionalTag_tagged {value : UInt64 × IntWidth}
    (found : (peekMajor data).runAt start = (.ok majorTag, start))
    (ran : (readTag data).runAt start = (.ok value, after)) :
    (skipOptionalTag data).runAt start = (.ok (), after) := by
  unfold skipOptionalTag
  rw [runAt_bind_ok (runAt_get _), if_pos (peekMajor_ok found).2, runAt_bind_ok found, if_pos rfl,
    runAt_bind_ok ran]
  rfl

theorem skipOptionalTag_untagged {major : Nat} (untagged : major ≠ majorTag)
    (found : (peekMajor data).runAt start = (.ok major, start)) :
    (skipOptionalTag data).runAt start = (.ok (), start) := by
  unfold skipOptionalTag
  rw [runAt_bind_ok (runAt_get _), if_pos (peekMajor_ok found).2, runAt_bind_ok found,
    if_neg untagged]
  rfl

theorem readHashes_walk {hashes : List Hash28}
    (ran : (readArray data (readCertHash28 data)).runAt start = (.ok hashes, after)) :
    ∃ encoding inside, (readArrayHeader data).runAt start = (.ok encoding, inside) ∧
      (iterate (.malformedField field) data (readRawHash28 data field) encoding).runAt inside = (.ok hashes, after) := by
  have walked := @readArray_walk data start after _ _ _ (.malformedField field) (readCertHash28 data)
    (readRawHash28 data field) id (fun _ => True) (fun read _ => readRawHash28_ok read)
    (fun _ => trivial) (fun _ => trivial) _ ran trivial
  rwa [List.map_id] at walked

theorem not_closes_hashes {hashes : List Hash28}
    (ran : (readArray data (readCertHash28 data)).runAt start = (.ok hashes, after)) :
    ¬ Closes data start := by
  obtain ⟨encoding, inside, opened, ran⟩ := of_runAt_bind_ok ran
  apply not_closes_array opened
  intro cert later decoded
  obtain ⟨count, width, inside', tag, tagWidth, middle, final, opened', positive, told, -⟩ :=
    decodeSingleCert_ok decoded
  cases opened.symm.trans opened'
  obtain ⟨more, enough⟩ := Nat.exists_eq_succ_of_ne_zero (Nat.ne_of_gt positive)
  dsimp only at ran
  rw [enough] at ran
  obtain ⟨hash, next, read, -⟩ := of_runAt_bind_ok ran
  exact absurd ((hasMajor_hash read).unique (hasMajor_readArgument told)) (by decide)

/-- A set of owners: how it is walked, that it is one item, and that no certificate ends before it. -/
structure OwnersAt (data : Bytes) (start after : Nat) (owners : List Hash28) : Prop where
  walk : ∃ opened encoding inside, (skipOptionalTag data).runAt start = (.ok (), opened) ∧
    (readArrayHeader data).runAt opened = (.ok encoding, inside) ∧
    (iterate (.malformedField .certificates) data (readRawHash28 data .certificates) encoding).runAt inside =
      (.ok owners, after)
  spans : Spans data 1 start after
  not_closes : ¬ Closes data start

theorem ownersAt_of_decode {owners : List Hash28}
    (ran : (readAddrKeyhashSet data).runAt start = (.ok owners, after)) :
    OwnersAt data start after owners := by
  obtain ⟨major, middle, found, behind⟩ := of_runAt_bind_ok ran
  obtain ⟨rfl, -⟩ := peekMajor_ok found
  by_cases tagged : major = majorTag
  · subst tagged
    rw [if_pos rfl] at behind
    obtain ⟨tag, next, read, hashes⟩ := of_runAt_bind_ok behind
    obtain ⟨encoding, inside, header, walked⟩ := @readHashes_walk _ .certificates _ _ _ hashes
    exact ⟨⟨next, encoding, inside, skipOptionalTag_tagged found read, header, walked⟩,
      (spans_tag read).mpr (spans_readArray spans_hash hashes),
      not_closes (hasMajor_readArgument read) (by decide) (by decide)⟩
  · rw [if_neg tagged] at behind
    obtain ⟨encoding, inside, header, walked⟩ := @readHashes_walk _ .certificates _ _ _ behind
    exact ⟨⟨_, encoding, inside, skipOptionalTag_untagged tagged found, header, walked⟩,
      spans_readArray spans_hash behind, not_closes_hashes behind⟩

/-- Where no certificate ends there is another element, if a certificate ends further on. -/
theorem spans_field {count : Nat} {last : Nat} (item : Spans data 1 start after)
    (inside : ¬ Closes data start) (items : Spans data count start last) (closed : Closes data last) :
    ∃ rest, count = 1 + rest ∧ Spans data rest after last := by
  cases count with
  | zero =>
      rw [spans_zero] at items
      rw [items] at inside
      exact absurd closed inside
  | succ rest => exact ⟨rest, Nat.add_comm .., item.tail items⟩

/-- The elements from `start` to `after` are `consumed` elements of any certificate that reaches so
far. -/
def Counts (data : Bytes) (consumed start after : Nat) : Prop :=
  ∀ count last, Spans data count start last → Closes data last →
    ∃ rest, count = consumed + rest ∧ Spans data rest after last

theorem counts_zero : Counts data 0 start start :=
  fun count _ items _ => ⟨count, (Nat.zero_add _).symm, items⟩

theorem counts_one (item : Spans data 1 start after) (inside : ¬ Closes data start) :
    Counts data 1 start after :=
  fun _ _ items closed => spans_field item inside items closed

theorem Counts.cons {consumed : Nat} (item : Spans data 1 start middle) (inside : ¬ Closes data start)
    (counts : Counts data consumed middle after) : Counts data (consumed + 1) start after := by
  intro count last items closed
  obtain ⟨behind, rfl, left⟩ := spans_field item inside items closed
  obtain ⟨rest, rfl, remaining⟩ := counts behind last left closed
  exact ⟨rest, by omega, remaining⟩

theorem not_closes_hash {size : Nat} {detail : String} {hash : Vector UInt8 size}
    (ran : (readHash size detail data).runAt start = (.ok hash, after)) : ¬ Closes data start :=
  not_closes (hasMajor_hash ran) (by decide) (by decide)

theorem not_closes_uint {value : UInt64 × IntWidth}
    (ran : (readUint data).runAt start = (.ok value, after)) : ¬ Closes data start :=
  not_closes (hasMajor_readArgument ran) (by decide) (by decide)

theorem margin_ok {margin : UInt64 × UInt64}
    (ran : (readMargin data).runAt start = (.ok margin, after)) :
    Spans data 1 start after ∧ ¬ Closes data start := by
  obtain ⟨tag, middle, tagged, ran⟩ := of_runAt_bind_ok ran
  obtain ⟨encoding, inside, opened, paired⟩ := of_runAt_bind_ok ran
  obtain ⟨⟨width, rfl⟩, fields⟩ := expectPair_ok paired
  obtain ⟨numerator, between, first, fields⟩ := of_runAt_bind_ok fields
  obtain ⟨denominator, final, second, fields⟩ := of_runAt_bind_ok fields
  cases fields
  refine ⟨?_, not_closes (hasMajor_readArgument tagged) (by decide) (by decide)⟩
  rw [spans_tag tagged, spans_array opened]
  exact (spans_uint first).append (spans_uint second)

theorem walkPoolRegistrationKeys_ok {cert : PoolRegistrationCert}
    (ran : (readPoolRegistrationCert data).runAt start = (.ok cert, after)) :
    (walkPoolRegistrationKeys data).runAt start = (.ok (.key cert.poolId :: cert.owners.map .key), after) ∧
      Counts data 7 start after := by
  obtain ⟨poolId, atVrf, readId, ran⟩ := of_runAt_bind_ok ran
  obtain ⟨vrfHash, atPledge, readVrf, ran⟩ := of_runAt_bind_ok ran
  obtain ⟨pledge, atCost, readPledge, ran⟩ := of_runAt_bind_ok ran
  obtain ⟨cost, atMargin, readCost, ran⟩ := of_runAt_bind_ok ran
  obtain ⟨margin, atAccount, readMargin, ran⟩ := of_runAt_bind_ok ran
  obtain ⟨account, atOwners, readAccount, ran⟩ := of_runAt_bind_ok ran
  obtain ⟨owners, final, readOwners, ran⟩ := of_runAt_bind_ok ran
  cases ran
  have set := ownersAt_of_decode readOwners
  obtain ⟨marginItem, marginInside⟩ := margin_ok readMargin
  have accountItem := spans_bytes readAccount
  have accountInside : ¬ Closes data atAccount :=
    not_closes (hasMajor_readBytes readAccount) (by decide) (by decide)
  constructor
  · have skipped : Spans data 5 atVrf atOwners :=
      (spans_hash readVrf).cons ((spans_uint readPledge).cons ((spans_uint readCost).cons
        (marginItem.cons accountItem)))
    obtain ⟨ranges, passed⟩ := @times_skip data .certificates _ _ _ skipped
    obtain ⟨opened, encoding, inside, tagged, header, walked⟩ := set.walk
    unfold walkPoolRegistrationKeys
    rw [runAt_bind_ok (readRawHash28_ok readId), runAt_bind_ok passed,
      runAt_bind_ok (inField_ok tagged), runAt_bind_ok (inField_ok header), runAt_bind_ok walked]
    rfl
  · exact .cons (spans_hash readId) (not_closes_hash readId) <|
      .cons (spans_hash readVrf) (not_closes_hash readVrf) <|
      .cons (spans_uint readPledge) (not_closes_uint readPledge) <|
      .cons (spans_uint readCost) (not_closes_uint readCost) <|
      .cons marginItem marginInside <| .cons accountItem accountInside <|
      counts_one set.spans set.not_closes

/-! ## One certificate -/

/-- What the reader gives, from wherever it starts. -/
def Yields {α : Type} (fact : α → Prop) (read : Read α) : Prop :=
  ∀ start value after, read.runAt start = (.ok value, after) → fact value

theorem Yields.pure {α : Type} {fact : α → Prop} {value : α} (known : fact value) :
    Yields fact (pure value) := by
  intro start found after ran
  cases ran
  exact known

theorem Yields.bind {α β : Type} {fact : β → Prop} {read : Read α} {next : α → Read β}
    (each : ∀ value, Yields fact (next value)) : Yields fact (read >>= next) := by
  intro start result after ran
  obtain ⟨value, middle, -, ran⟩ := of_runAt_bind_ok ran
  exact each value middle result after ran

/-- Tags of certificates that are witnessed by the credential behind the tag. -/
def credentialTags : List UInt64 := [1, 2, 7, 8, 9, 10, 11, 12, 13, 14, 15, 16, 17, 18]

theorem walkCertFields_credential {tag : UInt64} (member : tag ∈ credentialTags) :
    walkCertFields data tag = do return ([← readCredential data], 1) := by
  unfold credentialTags at member
  simp only [List.mem_cons, List.not_mem_nil, or_false] at member
  rcases member with rfl | rfl | rfl | rfl | rfl | rfl | rfl | rfl | rfl | rfl | rfl | rfl | rfl | rfl
    <;> rfl

/-- The walk of the fields that were decoded. -/
structure FieldsWalked (data : Bytes) (tag : UInt64) (start : Nat) (cert : ConwayCert) : Prop where
  of_walk ::
  walk : ∃ consumed after, (walkCertFields data tag).runAt start = (.ok (cert.witnesses, consumed), after) ∧
    Counts data consumed start after

theorem fieldsWalked_credential {tag : UInt64} {cert : ConwayCert} {next : StakeCredential → Read ConwayCert}
    (member : tag ∈ credentialTags)
    (decoded : (decodeCertCredential data >>= next).runAt start = (.ok cert, after))
    (asks : ∀ credential, Yields (·.witnesses = [credential.credential]) (next credential)) :
    FieldsWalked data tag start cert := by
  obtain ⟨credential, middle, read, rest⟩ := of_runAt_bind_ok decoded
  have found := credentialAt_of_decode read
  refine ⟨1, middle, ?_, counts_one found.spans found.not_closes⟩
  rw [walkCertFields_credential member, runAt_bind_ok found.walk, asks _ _ _ _ rest]
  rfl

theorem fieldsWalked_of_decode {tagOffset : Nat} {tag : UInt64} {cert : ConwayCert}
    (decoded : (decodeCertFields data tagOffset tag).runAt start = (.ok cert, after)) :
    FieldsWalked data tag start cert := by
  unfold decodeCertFields at decoded
  by_cases is0 : tag = 0
  · subst is0
    rw [if_pos rfl] at decoded
    obtain ⟨credential, middle, -, rest⟩ := of_runAt_bind_ok decoded
    cases rest
    exact ⟨0, start, rfl, counts_zero⟩
  rw [if_neg is0] at decoded
  by_cases is1 : tag = 1
  · subst is1
    rw [if_pos rfl] at decoded
    exact fieldsWalked_credential (by decide) decoded fun _ => .pure rfl
  rw [if_neg is1] at decoded
  by_cases is2 : tag = 2
  · subst is2
    rw [if_pos rfl] at decoded
    exact fieldsWalked_credential (by decide) decoded fun _ => .bind fun _ => .pure rfl
  rw [if_neg is2] at decoded
  by_cases is3 : tag = 3
  · subst is3
    rw [if_pos rfl] at decoded
    obtain ⟨pool, middle, read, rest⟩ := of_runAt_bind_ok decoded
    cases rest
    obtain ⟨walked, counts⟩ := walkPoolRegistrationKeys_ok read
    refine ⟨7, after, ?_, counts⟩
    unfold walkCertFields
    rw [if_neg (by decide), if_neg (by decide), if_pos rfl, runAt_bind_ok walked]
    rfl
  rw [if_neg is3] at decoded
  by_cases is4 : tag = 4
  · subst is4
    rw [if_pos rfl] at decoded
    obtain ⟨poolId, middle, read, rest⟩ := of_runAt_bind_ok decoded
    obtain ⟨epoch, final, -, rest⟩ := of_runAt_bind_ok rest
    cases rest
    refine ⟨1, middle, ?_, counts_one (spans_hash read) (not_closes_hash read)⟩
    unfold walkCertFields
    rw [if_neg (by decide), if_neg (by decide), if_neg (by decide), if_pos rfl,
      runAt_bind_ok (readRawHash28_ok read)]
    rfl
  rw [if_neg is4] at decoded
  by_cases removed : tag = 5 ∨ tag = 6
  · rw [if_pos removed] at decoded
    cases decoded
    refine ⟨0, start, ?_, counts_zero⟩
    unfold walkCertFields
    rw [if_pos (.inr removed)]
    rfl
  rw [if_neg removed] at decoded
  by_cases is7 : tag = 7
  · subst is7
    rw [if_pos rfl] at decoded
    exact fieldsWalked_credential (by decide) decoded fun _ => .bind fun _ => .pure rfl
  rw [if_neg is7] at decoded
  by_cases is8 : tag = 8
  · subst is8
    rw [if_pos rfl] at decoded
    exact fieldsWalked_credential (by decide) decoded fun _ => .bind fun _ => .pure rfl
  rw [if_neg is8] at decoded
  by_cases is9 : tag = 9
  · subst is9
    rw [if_pos rfl] at decoded
    exact fieldsWalked_credential (by decide) decoded fun _ => .bind fun _ => .pure rfl
  rw [if_neg is9] at decoded
  by_cases is10 : tag = 10
  · subst is10
    rw [if_pos rfl] at decoded
    exact fieldsWalked_credential (by decide) decoded fun _ => .bind fun _ => .bind fun _ => .pure rfl
  rw [if_neg is10] at decoded
  by_cases is11 : tag = 11
  · subst is11
    rw [if_pos rfl] at decoded
    exact fieldsWalked_credential (by decide) decoded fun _ => .bind fun _ => .bind fun _ => .pure rfl
  rw [if_neg is11] at decoded
  by_cases is12 : tag = 12
  · subst is12
    rw [if_pos rfl] at decoded
    exact fieldsWalked_credential (by decide) decoded fun _ => .bind fun _ => .bind fun _ => .pure rfl
  rw [if_neg is12] at decoded
  by_cases is13 : tag = 13
  · subst is13
    rw [if_pos rfl] at decoded
    exact fieldsWalked_credential (by decide) decoded
      fun _ => .bind fun _ => .bind fun _ => .bind fun _ => .pure rfl
  rw [if_neg is13] at decoded
  by_cases is14 : tag = 14
  · subst is14
    rw [if_pos rfl] at decoded
    exact fieldsWalked_credential (by decide) decoded fun _ => .bind fun _ => .pure rfl
  rw [if_neg is14] at decoded
  by_cases is15 : tag = 15
  · subst is15
    rw [if_pos rfl] at decoded
    exact fieldsWalked_credential (by decide) decoded fun _ => .pure rfl
  rw [if_neg is15] at decoded
  by_cases is16 : tag = 16
  · subst is16
    rw [if_pos rfl] at decoded
    exact fieldsWalked_credential (by decide) decoded fun _ => .bind fun _ => .pure rfl
  rw [if_neg is16] at decoded
  by_cases is17 : tag = 17
  · subst is17
    rw [if_pos rfl] at decoded
    exact fieldsWalked_credential (by decide) decoded fun _ => .bind fun _ => .pure rfl
  rw [if_neg is17] at decoded
  by_cases is18 : tag = 18
  · subst is18
    rw [if_pos rfl] at decoded
    exact fieldsWalked_credential (by decide) decoded fun _ => .pure rfl
  rw [if_neg is18] at decoded
  cases decoded

theorem walkOneCertificate_ok {cert : ConwayCert}
    (decoded : (decodeSingleCert data).runAt start = (.ok cert, after)) (closed : Closes data after) :
    (walkOneCertificate data).runAt start = (.ok cert.witnesses, after) := by
  obtain ⟨count, width, inside, tag, tagWidth, middle, final, opened, positive, told, fields, items⟩ :=
    decodeSingleCert_ok decoded
  obtain ⟨⟨consumed, behind, walked, counts⟩⟩ := fieldsWalked_of_decode fields
  obtain ⟨others, total⟩ := Nat.exists_eq_add_of_le positive
  rw [total, spans_add (spans_uint told)] at items
  obtain ⟨rest, rfl, left⟩ := counts others after items closed
  have drained : (drainArrayTail data .certificates (1 + consumed) (.definite count width)).runAt behind =
      (.ok (), after) := drainArrayTail_definite (by omega) left
  unfold walkOneCertificate
  rw [runAt_bind_ok (inField_ok opened), runAt_bind_ok (inField_ok told)]
  dsimp only
  rw [runAt_bind_ok walked, runAt_bind_ok drained]
  rfl

/-! ## All certificates -/

theorem decodeConwayCerts_ok {certs : List ConwayCert} (decoded : decodeConwayCerts data = .ok certs) :
    (decodeCertSet data).runAt 0 = (.ok certs, data.length) := by
  unfold decodeConwayCerts at decoded
  rcases ran : (decodeCertSet data).runAt 0 with ⟨failure | found, offset⟩
  · rw [ran] at decoded
    cases decoded
  · rw [ran] at decoded
    dsimp only [Except.bind] at decoded
    split_ifs at decoded with whole
    cases decoded
    rw [whole]

theorem walkCertificateCredentials_ok {certs : List ConwayCert}
    (decoded : decodeConwayCerts data = .ok certs) :
    walkCertificateCredentials data = .ok (certs.flatMap ConwayCert.witnesses) := by
  obtain ⟨tagged, middle, opened, listed⟩ := of_runAt_bind_ok (decodeConwayCerts_ok decoded)
  have finished : Closes data data.length := .ended (List.getElem?_eq_none (Nat.le_refl _))
  obtain ⟨encoding, inside, header, walked⟩ := @readArray_walk data _ _ _ _ _
    (.malformedField .certificates) (decodeSingleCert data) (walkOneCertificate data) ConwayCert.witnesses (Closes data)
    walkOneCertificate_ok .next .broken _ listed finished
  unfold walkCertificateCredentials walkCertificateSet
  rw [runAt_bind_ok (inField_ok opened), runAt_bind_ok (inField_ok header), runAt_map, walked]
  rfl

theorem mem_requireKey {source : SignerSource} {req : RequiredSigners} {hash : Hash28}
    (credential : Credential) :
    hash ∈ (requireKey source req credential).keys ↔ credential = .key hash ∨ hash ∈ req.keys := by
  cases credential with
  | key other =>
      simp only [requireKey, RequiredSigners.require, Std.ExtTreeSet.mem_insert,
        Std.compare_eq_iff_eq, Credential.key.injEq]
  | script other => simp only [requireKey, reduceCtorEq, false_or]

theorem mem_foldl_requireKey {source : SignerSource} {hash : Hash28} (credentials : List Credential)
    (req : RequiredSigners) :
    hash ∈ (credentials.foldl (requireKey source) req).keys ↔
      .key hash ∈ credentials ∨ hash ∈ req.keys := by
  induction credentials generalizing req with
  | nil => simp only [List.foldl_nil, List.not_mem_nil, false_or]
  | cons credential credentials ih =>
      rw [List.foldl_cons, ih, mem_requireKey, List.mem_cons, ← or_assoc]
      exact or_congr_left (or_comm.trans (or_congr_left eq_comm))

/-- Whatever certificates the ledger decodes, the walker yields their witnesses, in order, and the keys
among them are required of the transaction. -/
theorem certificates_witnessed (data : Bytes) (certs : List ConwayCert)
    (decoded : decodeConwayCerts data = .ok certs) :
    walkCertificateCredentials data = .ok (certs.flatMap ConwayCert.witnesses) ∧
      ∀ req, ∃ collected, collectCertificateKeys data req = .ok collected ∧
        ∀ hash, hash ∈ collected.keys ↔
          (∃ cert ∈ certs, .key hash ∈ cert.witnesses) ∨ hash ∈ req.keys := by
  have walked := walkCertificateCredentials_ok decoded
  refine ⟨walked, fun req => ⟨_, by rw [collectCertificateKeys, walked]; rfl, fun hash => ?_⟩⟩
  rw [mem_foldl_requireKey, List.mem_flatMap]

/-- A registered representative behind a tag and a retired pool, in an array of indefinite length. -/
def sampleCertificates : Bytes :=
  [0xd9, 0x01, 0x02, 0x9f] ++ ([0x84, 0x10, 0x82, 0x01, 0x58, 0x1c] ++ List.replicate 28 7 ++ [0, 0xf6]) ++
    ([0x83, 0x04, 0x58, 0x1c] ++ List.replicate 28 9 ++ [5]) ++ [0xff]

theorem certificates_witnessed_sample :
    decodeConwayCerts sampleCertificates = .ok [.drepRegistration (.scriptHash (.replicate 28 7)) 0,
        .poolRetirement (.replicate 28 9) 5] ∧
      walkCertificateCredentials sampleCertificates =
        .ok [.script (.replicate 28 7), .key (.replicate 28 9)] := by
  have decoded : decodeConwayCerts sampleCertificates =
      .ok [.drepRegistration (.scriptHash (.replicate 28 7)) 0, .poolRetirement (.replicate 28 9) 5] := by
    decide +kernel
  exact ⟨decoded, (certificates_witnessed _ _ decoded).1⟩

/-- A genesis key delegation of an earlier era, with a key credential behind its tag. -/
def removedCertificate : Bytes := [0x81, 0x82, 0x05, 0x82, 0x00, 0x58, 0x1c] ++ List.replicate 28 7

theorem removed_certificate_unwitnessed :
    decodeConwayCerts removedCertificate = .ok [.removedInConway 5] ∧
      ((decodeCertCredential removedCertificate).runAt 3).1 = .ok (.keyHash (.replicate 28 7)) ∧
      walkCertificateCredentials removedCertificate = .ok [] := by
  refine ⟨?_, ?_, ?_⟩ <;> decide +kernel

end Ade.Proof.Ledger
