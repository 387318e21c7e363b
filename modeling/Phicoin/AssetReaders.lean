import Phicoin.Disconnectable
import Phicoin.MempoolNames

/-! # The readers of an asset output

Validation reads an asset output with `GetAssetData`; the spent-output test reads
its amount with readers of its own, and spending and undoing read it once more.
All of them cut the script after the type byte, except for the transfers of
validation before the deployment of longer transfer scripts, which are cut at
position 31 whatever the push in front of them is. -/

namespace Phicoin

open ByteReader AssetsCache List Option TwosComplement

section

variable (env : Env) (script : Bytes)

def amountFromNewAssetScript : Option Int := do
  let nStartingIndex ← isScriptNewAsset script
  return (← readAt readNewAsset nStartingIndex script).nAmount

def amountFromTransferScript : Option Int := do
  let nStartingIndex ← isScriptTransferAsset script
  return (← readAt readAssetTransfer nStartingIndex script).nAmount

def amountFromReissueScript : Option Int := do
  let nStartingIndex ← isScriptReissueAsset script
  return (← readAt readReissueAsset nStartingIndex script).nAmount

/-- `ParseAssetScript`: the key hash, the name and the amount of an asset output. -/
def parseAssetScript : Option (Bytes × Bytes × Int) := do
  let info ← isAssetScript script
  let hashBytes := (script.drop 3).take 20
  match info.nType, info.fIsOwner with
  | .newAsset, true =>
    let (name, _) ← ownerAssetFromScript env script
    return (hashBytes, name, ownerAssetAmount)
  | .newAsset, false =>
    let (asset, _) ← assetFromScript env script
    return (hashBytes, asset.strName, asset.nAmount)
  | .reissueAsset, _ =>
    let (reissue, _) ← reissueAssetFromScript env script
    return (hashBytes, reissue.strName, reissue.nAmount)
  | .transferAsset, _ =>
    let (transfer, _) ← transferAssetFromScript env script
    return (hashBytes, transfer.strName, transfer.nAmount)
  | _, _ => none

end

/-- Name and amount of the record that stands at a position of an asset output. -/
def payload (info : AssetScript) (offset : Nat) (script : Bytes) : Option (Bytes × Int) :=
  match info.nType, info.fIsOwner with
  | .newAsset, false =>
    (readAt readNewAsset offset script).map fun asset => (asset.strName, asset.nAmount)
  | .newAsset, true => (readAt readText offset script).map fun name => (name, ownerAssetAmount)
  | .transferAsset, _ =>
    (readAt readAssetTransfer offset script).map fun transfer =>
      (transfer.strName, transfer.nAmount)
  | .reissueAsset, _ =>
    (readAt readReissueAsset offset script).map fun reissue => (reissue.strName, reissue.nAmount)
  | _, _ => none

def payloadOffset (env : Env) (info : AssetScript) : Nat :=
  if info.nType = .transferAsset && !env.areTransferScriptsSizeDeployed then 31
  else info.nStartingIndex

/-! ## Complete records

What the readers find is what the bytes of the script are: a record is there when none
of its parts is cut off. -/

/-- Fewer bytes than a hash has are no hash; more of them have to be one. -/
def HashWhole (bytes : Bytes) : Prop :=
  bytes.length < 33 ∨ ∃ kind hash rest, bytes = kind :: (writeString hash ++ rest) ∧
    hash.length ≤ maxSize

/-- What follows the amount of a record is complete. -/
def TailWhole (nType : TxnOutType) (bytes : Bytes) : Prop :=
  match nType with
  | .newAsset => ∃ units reissuable hasIPFS rest, Fits 8 units ∧ Fits 8 reissuable ∧
      Fits 8 hasIPFS ∧ bytes = signedBytes 1 units ++ (signedBytes 1 reissuable ++
        (signedBytes 1 hasIPFS ++ rest)) ∧ (hasIPFS = 1 → HashWhole rest)
  | .transferAsset => HashWhole bytes
  | .reissueAsset => ∃ units reissuable rest, Fits 8 units ∧ Fits 8 reissuable ∧
      bytes = signedBytes 1 units ++ (signedBytes 1 reissuable ++ rest) ∧ HashWhole rest
  | _ => False

/-- The bytes begin with a complete record of the name and the amount; an owner record has
only the name. -/
def RecordWhole (info : AssetScript) (bytes name : Bytes) (amount : Int) : Prop :=
  ∃ rest, name.length ≤ maxSize ∧ bytes = writeString name ++ rest ∧
    if info.fIsOwner then amount = ownerAssetAmount
    else Fits 64 amount ∧ ∃ tail, rest = signedBytes 8 amount ++ tail ∧ TailWhole info.nType tail

section

variable {bytes rest : Bytes}

theorem readText_iff {text : Bytes} : readText bytes = some (text, rest) ↔
    text.length ≤ maxSize ∧ bytes = writeString text ++ rest :=
  readString_iff (by decide)

theorem readInt64_iff {value : Int} : readInt64 bytes = some (value, rest) ↔
    Fits 64 value ∧ bytes = signedBytes 8 value ++ rest := readSigned_iff

theorem readInt8_iff {value : Int} : readInt8 bytes = some (value, rest) ↔
    Fits 8 value ∧ bytes = signedBytes 1 value ++ rest := readSigned_iff

variable {Q : Prop}

theorem reads_assetHash : Reads readAssetHash bytes (fun _ => Q) ↔ HashWhole bytes ∧ Q := by
  unfold readAssetHash HashWhole
  simp only [reads_bind]
  constructor
  · rintro ⟨_, _, ⟨⟩, read⟩
    split_ifs at read with short
    · exact ⟨.inl short, reads_pure.mp read⟩
    · simp only [reads_bind, readText_iff, reads_pure] at read
      obtain ⟨kind, _, first, text, rest, ⟨allowed, rfl⟩, holds⟩ := read
      exact ⟨.inr ⟨_, text, rest, readUnsigned_eq_some first, allowed⟩, holds⟩
  · rintro ⟨whole, holds⟩
    refine ⟨bytes.length, bytes, rfl, ?_⟩
    split_ifs with short
    · exact reads_pure.mpr holds
    · obtain ⟨kind, text, rest, rfl, allowed⟩ := whole.resolve_left short
      simp only [reads_bind, readText_iff, reads_pure]
      exact ⟨_, _, readUnsigned_byte kind, text, rest, ⟨allowed, rfl⟩, holds⟩

theorem reads_hashWhen {present : Bool} : Reads (readHashWhen present) bytes (fun _ => Q) ↔
    (present = true → HashWhole bytes) ∧ Q := by
  cases present <;> simp [readHashWhen, reads_assetHash, reads_pure]

theorem reads_expireTime {hasHash : Bool} :
    Reads (readExpireTime hasHash) bytes (fun _ => Q) ↔ Q := by
  refine ⟨fun ⟨_, _, _, holds⟩ => holds, fun holds => ?_⟩
  refine reads_bind.mpr ⟨bytes.length, bytes, rfl, ?_⟩
  split_ifs with present
  · rw [Bool.and_eq_true, decide_eq_true_eq] at present
    have word : readUnsigned 8 bytes = some (leValue (bytes.take 8), bytes.drop 8) :=
      run_bind.mpr ⟨_, _, if_neg (by omega), rfl⟩
    exact reads_bind.mpr ⟨_, _, word, reads_pure.mpr holds⟩
  · exact reads_pure.mpr holds

variable {name : Bytes} {amount : Int} {n : Nat}

theorem reads_newAsset :
    Reads readNewAsset bytes (fun asset => (asset.strName, asset.nAmount) = (name, amount)) ↔
      RecordWhole ⟨.newAsset, false, n⟩ bytes name amount := by
  simp only [readNewAsset, reads_bind, readText_iff, readInt64_iff, readInt8_iff, reads_pure,
    Prod.mk.injEq]
  constructor
  · rintro ⟨_, _, ⟨allowed, same⟩, _, _, ⟨fits, tail⟩, units, _, ⟨fits₁, rfl⟩, reissuable, _,
      ⟨fits₂, rfl⟩, hasIPFS, rest, ⟨fits₃, rfl⟩, hash⟩
    obtain ⟨whole, rfl, rfl⟩ := reads_hashWhen.mp hash
    exact ⟨_, allowed, same, fits, _, tail, units, reissuable, hasIPFS, rest, fits₁, fits₂, fits₃,
      rfl, by simpa using whole⟩
  · rintro ⟨_, allowed, same, fits, _, tail, units, reissuable, hasIPFS, rest, fits₁, fits₂, fits₃,
      rfl, whole⟩
    exact ⟨_, _, ⟨allowed, same⟩, _, _, ⟨fits, tail⟩, units, _, ⟨fits₁, rfl⟩, reissuable, _,
      ⟨fits₂, rfl⟩, hasIPFS, rest, ⟨fits₃, rfl⟩,
      reads_hashWhen.mpr ⟨by simpa using whole, rfl, rfl⟩⟩

theorem reads_assetTransfer : Reads readAssetTransfer bytes
      (fun transfer => (transfer.strName, transfer.nAmount) = (name, amount)) ↔
    RecordWhole ⟨.transferAsset, false, n⟩ bytes name amount := by
  simp only [readAssetTransfer, reads_bind, readText_iff, readInt64_iff, reads_pure, Prod.mk.injEq]
  constructor
  · rintro ⟨_, _, ⟨allowed, same⟩, _, _, ⟨fits, tail⟩, hash, last, read, time⟩
    obtain ⟨whole, rfl, rfl⟩ := reads_assetHash.mp ⟨hash, last, read, reads_expireTime.mp time⟩
    exact ⟨_, allowed, same, fits, _, tail, whole⟩
  · rintro ⟨_, allowed, same, fits, _, tail, whole⟩
    obtain ⟨hash, last, read, _⟩ := reads_assetHash.mpr ⟨whole, trivial⟩
    exact ⟨_, _, ⟨allowed, same⟩, _, _, ⟨fits, tail⟩, hash, last, read,
      reads_expireTime.mpr ⟨rfl, rfl⟩⟩

theorem reads_reissueAsset : Reads readReissueAsset bytes
      (fun reissue => (reissue.strName, reissue.nAmount) = (name, amount)) ↔
    RecordWhole ⟨.reissueAsset, false, n⟩ bytes name amount := by
  simp only [readReissueAsset, reads_bind, readText_iff, readInt64_iff, readInt8_iff, reads_pure,
    Prod.mk.injEq]
  constructor
  · rintro ⟨_, _, ⟨allowed, same⟩, _, _, ⟨fits, tail⟩, units, _, ⟨fits₁, rfl⟩, reissuable, rest,
      ⟨fits₂, rfl⟩, hash⟩
    obtain ⟨whole, rfl, rfl⟩ := reads_assetHash.mp hash
    exact ⟨_, allowed, same, fits, _, tail, units, reissuable, rest, fits₁, fits₂, rfl, whole⟩
  · rintro ⟨_, allowed, same, fits, _, tail, units, reissuable, rest, fits₁, fits₂, rfl, whole⟩
    exact ⟨_, _, ⟨allowed, same⟩, _, _, ⟨fits, tail⟩, units, _, ⟨fits₁, rfl⟩, reissuable, rest,
      ⟨fits₂, rfl⟩, reads_assetHash.mpr ⟨whole, rfl, rfl⟩⟩

end

section

variable {env : Env} {script : Bytes} {info : AssetScript} {n : Nat}

theorem payload_iff (found : isAssetScript script = some info) {offset : Nat} {name : Bytes}
    {amount : Int} : payload info offset script = some (name, amount) ↔
      RecordWhole info (script.drop offset) name amount := by
  have reads : ∀ {α : Type} (reader : Reader α) (key : α → Bytes × Int),
      (readAt reader offset script).map key = some (name, amount) ↔
        Reads reader (script.drop offset) fun a => key a = (name, amount) := by
    intro α reader key
    simp only [map_eq_some_iff, readAt_eq_some, Reads, exists_and_right]
  obtain ⟨nType, fIsOwner, n⟩ := info
  rcases isAssetScript_kinds found with ⟨rfl, rfl⟩ | ⟨rfl, rfl⟩ | ⟨rfl, rfl⟩ | ⟨rfl, rfl⟩
  · exact (reads readNewAsset _).trans reads_newAsset
  · refine (reads readText _).trans ⟨?_, ?_⟩
    · rintro ⟨_, rest, read, ⟨⟩⟩
      obtain ⟨allowed, same⟩ := readText_iff.mp read
      exact ⟨rest, allowed, same, rfl⟩
    · rintro ⟨rest, allowed, same, rfl⟩
      exact ⟨name, rest, readText_iff.mpr ⟨allowed, same⟩, rfl⟩
  · exact (reads readAssetTransfer _).trans reads_assetTransfer
  · exact (reads readReissueAsset _).trans reads_reissueAsset

theorem fromScript_eq {α : Type} {nType : TxnOutType} {fIsOwner : Bool} (offset : Nat → Nat)
    (reader : Reader α) (found : isAssetScript script = some ⟨nType, fIsOwner, n⟩) :
    ((assetScriptOf nType fIsOwner script).bind fun n =>
      (readAt reader (offset n) script).bind fun a => some (a, scriptAddress env script)) =
        (readAt reader (offset n) script).map fun a => (a, scriptAddress env script) := by
  rw [assetScriptOf_eq_some.mpr found]
  cases read : readAt reader (offset n) script <;> simp [read]

theorem assetFromScript_eq (found : isAssetScript script = some ⟨.newAsset, false, n⟩) :
    assetFromScript env script =
      (readAt readNewAsset n script).map fun asset => (asset, scriptAddress env script) :=
  fromScript_eq id readNewAsset found

theorem ownerAssetFromScript_eq (found : isAssetScript script = some ⟨.newAsset, true, n⟩) :
    ownerAssetFromScript env script =
      (readAt readText n script).map fun name => (name, scriptAddress env script) :=
  fromScript_eq id readText found

theorem transferAssetFromScript_eq
    (found : isAssetScript script = some ⟨.transferAsset, false, n⟩) :
    transferAssetFromScript env script =
      (readAt readAssetTransfer (if env.areTransferScriptsSizeDeployed then n else 31) script).map
        fun transfer => (transfer, scriptAddress env script) :=
  fromScript_eq (fun n => if env.areTransferScriptsSizeDeployed then n else 31) readAssetTransfer
    found

theorem reissueAssetFromScript_eq (found : isAssetScript script = some ⟨.reissueAsset, false, n⟩) :
    reissueAssetFromScript env script =
      (readAt readReissueAsset n script).map fun reissue => (reissue, scriptAddress env script) :=
  fromScript_eq id readReissueAsset found

theorem payloadOffset_transfer : payloadOffset env ⟨.transferAsset, false, n⟩ =
    if env.areTransferScriptsSizeDeployed then n else 31 := by
  cases deployed : env.areTransferScriptsSizeDeployed <;> simp [payloadOffset, deployed]

theorem assetOfScript_payload (found : isAssetScript script = some info) :
    assetOfScript env script = (payload info (payloadOffset env info) script).map fun read =>
      (read.1, scriptAddress env script, read.2) := by
  obtain ⟨nType, fIsOwner, n⟩ := info
  rcases isAssetScript_kinds found with ⟨rfl, rfl⟩ | ⟨rfl, rfl⟩ | ⟨rfl, rfl⟩ | ⟨rfl, rfl⟩
  · have offset : payloadOffset env ⟨.newAsset, false, n⟩ = n := rfl
    rw [assetOfScript, found, offset]
    simp only [assetFromScript_eq found, payload, bind_eq_bind, bind_some]
    cases readAt readNewAsset n script <;> rfl
  · have offset : payloadOffset env ⟨.newAsset, true, n⟩ = n := rfl
    rw [assetOfScript, found, offset]
    simp only [ownerAssetFromScript_eq found, payload, bind_eq_bind, bind_some]
    cases readAt readText n script <;> rfl
  · rw [assetOfScript, found, payloadOffset_transfer]
    simp only [transferAssetFromScript_eq found, payload, bind_eq_bind, bind_some]
    cases readAt readAssetTransfer (if env.areTransferScriptsSizeDeployed then n else 31) script <;>
      rfl
  · have offset : payloadOffset env ⟨.reissueAsset, false, n⟩ = n := rfl
    rw [assetOfScript, found, offset]
    simp only [reissueAssetFromScript_eq found, payload, bind_eq_bind, bind_some]
    cases readAt readReissueAsset n script <;> rfl

theorem scriptReaders_eq :
    ((getAssetData env script).map (fun data => (data.type, data.assetName, data.nAmount)) =
      (isAssetScript script).bind fun info =>
        (assetOfScript env script).map fun read => (info.nType, read.1, read.2.2)) ∧
    parseAssetScript env script =
      (assetOfScript env script).map fun read => ((script.drop 3).take 20, read.1, read.2.2) := by
  unfold getAssetData parseAssetScript assetOfScript
  cases found : isAssetScript script with
  | none => exact ⟨rfl, rfl⟩
  | some info =>
    obtain ⟨nType, fIsOwner, n⟩ := info
    rcases isAssetScript_kinds found with ⟨rfl, rfl⟩ | ⟨rfl, rfl⟩ | ⟨rfl, rfl⟩ | ⟨rfl, rfl⟩ <;>
      simp only [bind_eq_bind, bind_some]
    · cases assetFromScript env script <;> exact ⟨rfl, rfl⟩
    · cases ownerAssetFromScript env script <;> exact ⟨rfl, rfl⟩
    · cases transferAssetFromScript env script <;> exact ⟨rfl, rfl⟩
    · cases reissueAssetFromScript env script <;> exact ⟨rfl, rfl⟩

theorem getAssetAmountFromScript_eq (found : isAssetScript script = some info) :
    getAssetAmountFromScript script =
      match info.nType, info.fIsOwner with
      | .newAsset, false => amountFromNewAssetScript script
      | .transferAsset, _ => amountFromTransferScript script
      | .newAsset, true => some ownerAssetAmount
      | .reissueAsset, _ => amountFromReissueScript script
      | _, _ => none := by
  obtain ⟨nType, fIsOwner, n⟩ := info
  have ofKind := assetScriptOf_eq_some.mpr found
  rcases isAssetScript_kinds found with ⟨rfl, rfl⟩ | ⟨rfl, rfl⟩ | ⟨rfl, rfl⟩ | ⟨rfl, rfl⟩ <;>
    simp [getAssetAmountFromScript, found, amountFromNewAssetScript, amountFromTransferScript,
      amountFromReissueScript, isScriptNewAsset, isScriptTransferAsset, isScriptReissueAsset,
      ofKind]

theorem amountFromNewAssetScript_eq (env : Env) (script : Bytes) :
    amountFromNewAssetScript script =
      (assetFromScript env script).map fun read => read.1.nAmount := by
  unfold amountFromNewAssetScript assetFromScript
  cases isScriptNewAsset script with
  | none => rfl
  | some n => cases read : readAt readNewAsset n script <;> simp [read]

theorem amountFromReissueScript_eq (env : Env) (script : Bytes) :
    amountFromReissueScript script =
      (reissueAssetFromScript env script).map fun read => read.1.nAmount := by
  unfold amountFromReissueScript reissueAssetFromScript
  cases isScriptReissueAsset script with
  | none => rfl
  | some n => cases read : readAt readReissueAsset n script <;> simp [read]

/-- The amounts of transfers are alike where the two cuts read the same record. -/
theorem amountFromTransferScript_eq (alike : ∀ n,
      isAssetScript script = some ⟨.transferAsset, false, n⟩ →
        payload ⟨.transferAsset, false, n⟩ n script = payload ⟨.transferAsset, false, n⟩
          (if env.areTransferScriptsSizeDeployed then n else 31) script) :
    amountFromTransferScript script =
      (transferAssetFromScript env script).map fun read => read.1.nAmount := by
  cases ofKind : assetScriptOf .transferAsset false script with
  | none => simp [amountFromTransferScript, transferAssetFromScript, isScriptTransferAsset, ofKind]
  | some n =>
    have found := assetScriptOf_eq_some.mp ofKind
    have amounts := congrArg (Option.map Prod.snd) (alike n found)
    simp only [payload, Option.map_map, Function.comp_def] at amounts
    rw [transferAssetFromScript_eq found, Option.map_map, Function.comp_def, ← amounts]
    unfold amountFromTransferScript
    rw [isScriptTransferAsset, ofKind]
    cases read : readAt readAssetTransfer n script <;> simp [read]

theorem getAssetAmountFromScript_payload (found : isAssetScript script = some info) {name : Bytes}
    {amount : Int} (read : payload info info.nStartingIndex script = some (name, amount)) :
    getAssetAmountFromScript script = some amount := by
  obtain ⟨nType, fIsOwner, n⟩ := info
  have ofKind := assetScriptOf_eq_some.mpr found
  rw [getAssetAmountFromScript_eq found]
  rcases isAssetScript_kinds found with ⟨rfl, rfl⟩ | ⟨rfl, rfl⟩ | ⟨rfl, rfl⟩ | ⟨rfl, rfl⟩ <;>
    simp only [payload, map_eq_some_iff, Prod.mk.injEq] at read <;>
    obtain ⟨record, recordRead, rfl, rfl⟩ := read
  · simp [amountFromNewAssetScript, isScriptNewAsset, ofKind, recordRead]
  · rfl
  · simp [amountFromTransferScript, isScriptTransferAsset, ofKind, recordRead]
  · simp [amountFromReissueScript, isScriptReissueAsset, ofKind, recordRead]

end

section

variable {env : Env} {tx : Transaction} {out : TxOut} {use : RestrictedUse}

theorem ne_nil_of_valid {name : Bytes} (valid : (isAssetNameValid name).passed = true) :
    name ≠ [] := by
  rintro rfl
  exact absurd valid (by decide)

theorem owner_of_checked (kind : checkTransactionKind env tx = .ok use) (member : out ∈ tx.vout)
    (isOwner : isOwnerAssetScript out.scriptPubKey = true) :
    ∃ name address, ownerAssetFromScript env out.scriptPubKey = some (name, address) ∧
      name ≠ [] := by
  have branch := checkTransactionKind_ok kind
  have counts := counts_of_kind kind
  have absent := countOutputs_ne_zero member isOwner
  cases kindEq : tx.kind env <;> simp only [kindEq] at branch counts
  case issue =>
    obtain ⟨name, address, read⟩ := ownerRead_of_verified branch.1
    rw [← ownerScript_of_verifyNewAsset branch.1 member isOwner] at read
    obtain ⟨issued, _, rfl⟩ := owner_source kind member read
    exact ⟨_, address, read, by simp [ownerTag, ascii]⟩
  all_goals exact absurd counts.1 absent

variable (checked : checkTransaction env tx true false true = .ok ()) (member : out ∈ tx.vout)

include checked member

theorem reissue_of_checked (isReissue : isReissueAssetScript out.scriptPubKey = true) :
    ∃ reissue address, reissueAssetFromScript env out.scriptPubKey = some (reissue, address) ∧
      reissue.strName ≠ [] := by
  obtain ⟨_, _, stages⟩ := checkTransaction_ok checked
  have kind := stages.kind
  have branch := checkTransactionKind_ok kind
  have counts := counts_of_kind kind
  have absent := countOutputs_ne_zero member isReissue
  cases kindEq : tx.kind env <;> simp only [kindEq] at branch counts
  case reissue =>
    obtain ⟨_, reissue, address, read, moved, _⟩ := verifyReissueAsset_ok branch.1
    rw [script_eq_lastScript counts.2.2 (kind_of_read read) member isReissue]
    refine ⟨reissue, address, read, fun empty => ?_⟩
    -- the owner token of the empty name would be `!`, which is no valid name
    have authority : Transaction.reissueAuthority reissue = [] := by
      rw [Transaction.reissueAuthority, empty]
      decide
    rw [authority, Transaction.hasTransferOf, List.any_eq_true] at moved
    obtain ⟨token, inOutputs, moves⟩ := moved
    cases transferred : transferAssetFromScript env token.scriptPubKey with
    | none => simp [transferred] at moves
    | some result =>
      obtain ⟨transfer, holder⟩ := result
      obtain ⟨n, isTransfer, _⟩ := transferAssetFromScript_eq_some transferred
      obtain ⟨transfer', holder', readAgain, valid⟩ := transfer_of_checked checked inOutputs
        (by rw [isTransferAssetScript, isTransfer]; rfl)
      rw [transferred] at readAgain
      cases readAgain
      simp only [transferred, decide_eq_true_eq] at moves
      rw [← moves] at valid
      exact absurd valid (by decide)
  case unique => exact absurd counts.2 absent
  all_goals exact absurd counts.2.2 absent

theorem payload_of_checked {info : AssetScript}
    (found : isAssetScript out.scriptPubKey = some info) :
    ∃ name amount, payload info (payloadOffset env info) out.scriptPubKey = some (name, amount) ∧
      name ≠ [] ∧ (info.nType = .transferAsset → (isAssetNameValid name).passed = true) := by
  obtain ⟨_, _, stages⟩ := checkTransaction_ok checked
  have kind := stages.kind
  have spent : ∃ name address amount, assetOfScript env out.scriptPubKey =
      some (name, address, amount) ∧ name ≠ [] ∧
        (info.nType = .transferAsset → (isAssetNameValid name).passed = true) := by
    obtain ⟨nType, fIsOwner, n⟩ := info
    have ofKind := assetScriptOf_eq_some.mpr found
    unfold assetOfScript
    rw [found]
    rcases isAssetScript_kinds found with ⟨rfl, rfl⟩ | ⟨rfl, rfl⟩ | ⟨rfl, rfl⟩ | ⟨rfl, rfl⟩
    · obtain ⟨asset, address, read, valid⟩ := issue_of_checked kind member
        (by rw [isNewAssetScript, isScriptNewAsset, ofKind]; rfl)
      exact ⟨_, address, asset.nAmount, by simp [read], ne_nil_of_valid valid, by simp⟩
    · obtain ⟨name, address, read, named⟩ := owner_of_checked kind member
        (by rw [isOwnerAssetScript, isScriptOwnerAsset, ofKind]; rfl)
      exact ⟨_, address, ownerAssetAmount, by simp [read], named, by simp⟩
    · obtain ⟨transfer, address, read, valid⟩ := transfer_of_checked checked member
        (by rw [isTransferAssetScript, isScriptTransferAsset, ofKind]; rfl)
      exact ⟨_, address, transfer.nAmount, by simp [read], ne_nil_of_valid valid, fun _ => valid⟩
    · obtain ⟨reissue, address, read, named⟩ := reissue_of_checked checked member
        (by rw [isReissueAssetScript, isScriptReissueAsset, ofKind]; rfl)
      exact ⟨_, address, reissue.nAmount, by simp [read], named, by simp⟩
  obtain ⟨name, address, amount, read, rest⟩ := spent
  rw [assetOfScript_payload found, map_eq_some_iff] at read
  obtain ⟨_, read, ⟨⟩⟩ := read
  exact ⟨_, _, read, rest⟩

end

section

variable {script name : Bytes}

theorem drop_of_writeString {rest : Bytes} {k : Nat} (small : (byteAt script k).toNat < 253)
    (written : script.drop k = writeString name ++ rest) :
    name.length = (byteAt script k).toNat ∧ script.drop (k + 1) = name ++ rest := by
  have head : byteAt script k = (script.drop k).headD 0 := by
    rw [byteAt, getD_eq_getElem?_getD, headD_eq_head?_getD, head?_drop]
  have tail : script.drop (k + 1) = (script.drop k).tail := by simp
  rw [head, written] at small
  rw [head, tail, written]
  unfold writeString writeCompactSize at small ⊢
  split_ifs at small ⊢ with short
  · simp only [leBytes, cons_append, nil_append, headD_cons, tail_cons, and_true]
    rw [UInt8.toNat_ofNat']
    omega
  all_goals simp [leBytes] at small

variable {n : Nat} (found : isAssetScript script = some ⟨.transferAsset, false, n⟩)
  (elsewhere : n ≠ 31)

include found elsewhere

theorem transfer_bytes :
    (n = 32 ∧ byteAt script 31 = phiT) ∨ (byteAt script 31 = phiN ∧ byteAt script 32 = phiT) := by
  unfold isAssetScript at found
  split at found
  · split at found
    · cases found
    · rename_i index atIndex
      split_ifs at found with isTransfer
      all_goals cases found
      unfold assetTypeIndex at atIndex
      split_ifs at atIndex with _ _ _ _ _ marked
      all_goals cases atIndex
      · exact absurd rfl elsewhere
      · exact .inl ⟨rfl, isTransfer⟩
      · simp only [markerAt, Bool.and_eq_true, decide_eq_true_eq] at marked
        exact .inr ⟨marked.2, isTransfer⟩
  · cases found

theorem transfer_names_differ {other : Bytes} {amount otherAmount : Int}
    (early : RecordWhole ⟨.transferAsset, false, n⟩ (script.drop 31) name amount)
    (late : RecordWhole ⟨.transferAsset, false, n⟩ (script.drop n) other otherAmount)
    (valid : (isAssetNameValid name).passed = true) : name ≠ other := by
  rintro rfl
  -- a valid name does not start with the type byte
  have starts : ∀ rest, name ≠ 116 :: rest := by
    rintro rest rfl
    rw [isAssetNameValid_lower_t] at valid
    cases valid
  obtain ⟨rest, _, written, _⟩ := early
  rcases transfer_bytes found elsewhere with ⟨rfl, typeByte⟩ | ⟨marker, typeByte⟩
  · obtain ⟨size, after⟩ := drop_of_writeString (by rw [typeByte]; decide) written
    obtain ⟨rest', _, again, _⟩ := late
    rw [after, writeString, size, typeByte] at again
    cases name with
    | nil => rw [typeByte] at size; cases size
    | cons first others =>
      have head := congrArg head? again
      have isType : first = 116 := by simpa [writeCompactSize, leBytes, phiT] using head
      exact starts others (by rw [isType])
  · obtain ⟨size, after⟩ := drop_of_writeString (by rw [marker]; decide) written
    cases name with
    | nil => rw [marker] at size; cases size
    | cons first others =>
      have head := congrArg head? after
      rw [head?_drop] at head
      have isType : first = 116 := by
        rw [byteAt, getD_eq_getElem?_getD, head] at typeByte
        exact typeByte
      exact starts others (by rw [isType])

end

/-- The environment of a later block: the deployment has not been taken back. -/
def Env.Later (env env' : Env) : Prop :=
  env.areTransferScriptsSizeDeployed = true → env'.areTransferScriptsSizeDeployed = true

/-- What is read of an output, under `env'` when it is spent or its spending is undone, is
what validation read of it under `env`. -/
structure ReadAlike (env env' : Env) (script : Bytes) : Prop where
  classified : (isAssetScript script).map AssetScript.nType =
    (getAssetData env script).map AssetOutputEntry.type
  amount : getAssetAmountFromScript script = (getAssetData env script).map AssetOutputEntry.nAmount
  newAsset : amountFromNewAssetScript script =
    (assetFromScript env script).map fun read => read.1.nAmount
  transfer : amountFromTransferScript script =
    (transferAssetFromScript env script).map fun read => read.1.nAmount
  reissue : amountFromReissueScript script =
    (reissueAssetFromScript env script).map fun read => read.1.nAmount
  parsed : (parseAssetScript env' script).map Prod.snd =
    (getAssetData env script).map fun data => (data.assetName, data.nAmount)

/-- A spendable coin of the output can be spent and its spending undone, in every state of
the assets. -/
def SpendsAndUndoes (env : Env) (script : Bytes) : Prop :=
  isUnspendable script = false → ∀ global cache,
    (trySpendCoin env global cache script).isSome = true ∧
      ((isAssetScript script).isSome = true →
        (undoAssetCoin env global cache script).isSome = true)

/-- An asset output has a complete record at its own position, and a transfer from before
the deployment has the same one at position 31. -/
def RecordInPlace (env : Env) (script : Bytes) : Prop :=
  ∀ info, isAssetScript script = some info → ∃ name amount,
    RecordWhole info (script.drop info.nStartingIndex) name amount ∧
      (info.nType = .transferAsset → env.areTransferScriptsSizeDeployed = true ∨
        RecordWhole info (script.drop 31) name amount)

def PayloadInPlace (env : Env) (script : Bytes) : Prop :=
  ∀ info, isAssetScript script = some info → info.nType = .transferAsset →
    env.areTransferScriptsSizeDeployed = true ∨ info.nStartingIndex = 31

section

variable {env env' : Env} {script : Bytes} {info : AssetScript} {name : Bytes} {amount : Int}

/-- A later reader looks where its own record is, or where a transfer from before the
deployment has the same one. -/
theorem payload_later (later : env.Later env')
    (early : info.nType = .transferAsset → env.areTransferScriptsSizeDeployed = true ∨
      payload info 31 script = payload info info.nStartingIndex script) :
    payload info (payloadOffset env' info) script =
      payload info info.nStartingIndex script := by
  unfold payloadOffset
  split
  · rename_i undeployed
    simp only [Bool.and_eq_true, decide_eq_true_eq, Bool.not_eq_true'] at undeployed
    rcases early undeployed.1 with deployed | record
    · rw [later deployed] at undeployed
      cases undeployed.2
    · exact record
  · rfl

theorem readAlike_of_plain (plain : isAssetScript script = none) : ReadAlike env env' script where
  classified := by simp [getAssetData, plain]
  amount := by simp [getAssetData, getAssetAmountFromScript, plain]
  newAsset := amountFromNewAssetScript_eq env script
  transfer := amountFromTransferScript_eq fun n found => by simp [plain] at found
  reissue := amountFromReissueScript_eq env script
  parsed := by simp [getAssetData, parseAssetScript, plain]

variable (found : isAssetScript script = some info)

include found

/-- Validation reads an asset output exactly when a record is where it looks. -/
theorem getAssetData_payload : (getAssetData env script).map
      (fun data => (data.type, data.assetName, data.nAmount)) =
    (payload info (payloadOffset env info) script).map fun read => (info.nType, read) := by
  rw [scriptReaders_eq.1, found, Option.bind_some, assetOfScript_payload found, Option.map_map]
  rfl

theorem parseAssetScript_payload : (parseAssetScript env script).map Prod.snd =
    payload info (payloadOffset env info) script := by
  rw [scriptReaders_eq.2, assetOfScript_payload found, Option.map_map, Option.map_map]
  cases payload info (payloadOffset env info) script <;> rfl

theorem readAlike_of_payload
    (own : payload info info.nStartingIndex script = some (name, amount))
    (validated : payload info (payloadOffset env info) script = some (name, amount))
    (later : payload info (payloadOffset env' info) script = some (name, amount)) :
    ReadAlike env env' script := by
  have data := @getAssetData_payload env script info found
  rw [validated] at data
  obtain ⟨entry, entryRead, same⟩ := map_eq_some_iff.mp data
  simp only [Prod.mk.injEq] at same
  refine ⟨?_, ?_, amountFromNewAssetScript_eq env script, amountFromTransferScript_eq ?_,
    amountFromReissueScript_eq env script, ?_⟩
  · rw [found, entryRead, map_some, map_some, same.1]
  · rw [getAssetAmountFromScript_payload found own, entryRead, map_some, same.2.2]
  · rintro n isTransfer
    obtain rfl := Option.some.inj (found.symm.trans isTransfer)
    rw [payloadOffset_transfer] at validated
    exact own.trans validated.symm
  · rw [parseAssetScript_payload found, later, entryRead]
    simp [same]

theorem spendsAndUndoes_of_payload
    (own : payload info info.nStartingIndex script = some (name, amount))
    (read : payload info (payloadOffset env info) script = some (name, amount))
    (named : name ≠ []) : SpendsAndUndoes env script := by
  intro spendable global cache
  have spent : assetOfScript env script = some (name, scriptAddress env script, amount) := by
    rw [assetOfScript_payload found, read]
    rfl
  have paid := @scriptAddress_asset_ne_nil env script info found
  refine ⟨?_, fun _ => ?_⟩
  · unfold trySpendCoin
    rw [found, spent]
    simp only [isNone_some, Bool.false_eq_true, if_false, named, paid, decide_false,
      Bool.or_self]
    split
    · split <;> rfl
    · rfl
  · have nonzero : amount ≠ 0 := by
      rintro rfl
      simp [isUnspendable, getAssetAmountFromScript_payload found own] at spendable
    simp [undoAssetCoin, spent, named, paid, nonzero]

end

theorem readAlike_iff {env : Env} {script : Bytes} :
    (∀ env', env.Later env' → ReadAlike env env' script) ↔ RecordInPlace env script := by
  constructor
  · intro alike info found
    -- after the deployment every script is read at its own position
    have deployed := alike { env with areTransferScriptsSizeDeployed := true } fun _ => rfl
    have data := @getAssetData_payload env script info found
    have classified := deployed.classified
    rw [found, Option.map_some] at classified
    obtain ⟨entry, entryRead, _⟩ := Option.map_eq_some_iff.mp classified.symm
    rw [entryRead, Option.map_some] at data
    obtain ⟨read, validated, same⟩ := Option.map_eq_some_iff.mp data.symm
    simp only [Prod.mk.injEq] at same
    have parsed := deployed.parsed
    rw [parseAssetScript_payload found, entryRead, Option.map_some, ← same.2] at parsed
    have own : payloadOffset { env with areTransferScriptsSizeDeployed := true } info =
        info.nStartingIndex := by simp [payloadOffset]
    rw [own] at parsed
    refine ⟨read.1, read.2, (payload_iff found).mp parsed, fun isTransfer => ?_⟩
    refine or_iff_not_imp_left.mpr fun early => (payload_iff found).mp ?_
    have offset : payloadOffset env info = 31 := by simp [payloadOffset, isTransfer, early]
    rwa [offset] at validated
  · intro readable env' later
    cases found : isAssetScript script with
    | none => exact readAlike_of_plain found
    | some info =>
      obtain ⟨name, amount, own, early⟩ := readable info found
      rw [← payload_iff found] at own
      have sameRecord := fun isTransfer => (early isTransfer).imp_right fun record =>
        ((payload_iff found).mpr record).trans own.symm
      exact readAlike_of_payload found own ((payload_later id sameRecord).trans own)
        ((payload_later later sameRecord).trans own)

/-- Every reader finds the same type, name and amount in a script, under validation and
under every later spend, if and only if an asset output has a complete record, and a
transfer from before the deployment the same one at position 31.  For an output of an
accepted block that leaves only transfers behind a longer push from before the
deployment; every other one can be spent, and its spending undone. -/
theorem asset_readers_agree_iff (env : Env) (script : Bytes) :
    ((∀ env', env.Later env' → ReadAlike env env' script) ↔ RecordInPlace env script) ∧
    ∀ rules block, checkBlock env rules block = .ok () → ∀ tx ∈ block.vtx, ∀ out ∈ tx.vout,
      out.scriptPubKey = script →
        ((∀ env', env.Later env' → ReadAlike env env' script ∧ SpendsAndUndoes env' script) ↔
          PayloadInPlace env script) := by
  refine ⟨readAlike_iff, ?_⟩
  rintro rules block accepted tx inBlock out member rfl
  have checked := checkBlock_ok accepted tx inBlock
  constructor
  · intro alike info found isTransfer
    obtain ⟨name, amount, read, _, valid⟩ := payload_of_checked checked member found
    obtain ⟨own, ownAmount, record, early⟩ :=
      readAlike_iff.mp (fun env' later => (alike env' later).1) info found
    by_contra elsewhere
    rw [not_or] at elsewhere
    have first := (early isTransfer).resolve_left elsewhere.1
    obtain ⟨nType, fIsOwner, n⟩ := info
    obtain rfl : nType = .transferAsset := isTransfer
    obtain rfl : fIsOwner = false := by simpa using isAssetScript_kinds found
    rw [payloadOffset_transfer, if_neg elsewhere.1, (payload_iff found).mpr first] at read
    cases read
    exact transfer_names_differ found elsewhere.2 first record (valid rfl) rfl
  · intro inPlace env' later
    cases found : isAssetScript out.scriptPubKey with
    | none => exact ⟨readAlike_of_plain found, by simp [SpendsAndUndoes, trySpendCoin, found]⟩
    | some info =>
      obtain ⟨name, amount, read, named, _⟩ := payload_of_checked checked member found
      have atStart := fun isTransfer => (inPlace info found isTransfer).imp_right fun start =>
        congrArg (payload info · out.scriptPubKey) start.symm
      have own := (payload_later id atStart).symm.trans read
      have atSpend := (payload_later later atStart).trans own
      exact ⟨readAlike_of_payload found own read atSpend,
        spendsAndUndoes_of_payload found own atSpend named⟩

namespace AssetReaders

def env : Env := { MainNet.env with areTransferScriptsSizeDeployed := false }

/-- A sub asset whose name has as many bytes as the letter `t` counts. -/
def asset : NewAsset :=
  ⟨List.replicate 64 65 ++ ascii "/" ++ List.replicate 51 65, coin, 0, 0, 0, []⟩

def script : Bytes :=
  payToPublicKeyHash MainNet.alice ++ [opPhiAsset] ++
    pushData (ascii "rvnt" ++ asset.strName ++ signedBytes 8 coin) ++ [opDrop]

def block : Block := MainNet.block 1 [MainNet.transaction 20 [⟨7, 0⟩] [⟨0, script⟩]]

def view : BlockView := ⟨MainNet.coins [(⟨7, 0⟩, MainNet.issue asset)], .empty⟩

def plainBlock : Block :=
  MainNet.block 1 [MainNet.transaction 20 [⟨7, 0⟩] [MainNet.transfer (ascii "ROOT") coin]]

end AssetReaders

open AssetReaders

/-- A transfer with a direct push is read alike after the deployment. -/
theorem asset_readers_agree_iff_plain : checkBlock env MainNet.rules plainBlock = .ok () ∧
      ReadAlike env MainNet.env (MainNet.transfer (ascii "ROOT") coin).scriptPubKey ∧
      SpendsAndUndoes MainNet.env (MainNet.transfer (ascii "ROOT") coin).scriptPubKey := by
  have checked : checkBlock env MainNet.rules plainBlock = .ok () := by decide +kernel
  have inPlace : (isAssetScript (MainNet.transfer (ascii "ROOT") coin).scriptPubKey).map
      AssetScript.nStartingIndex = some 31 := by decide +kernel
  refine ⟨checked, ((asset_readers_agree_iff env _).2 MainNet.rules plainBlock checked
    (MainNet.transaction 20 [⟨7, 0⟩] [MainNet.transfer (ascii "ROOT") coin])
    (List.mem_cons_of_mem _ List.mem_cons_self) (MainNet.transfer (ascii "ROOT") coin)
    List.mem_cons_self rfl).mpr (fun info found _ => .inr ?_) MainNet.env fun _ => rfl⟩
  rw [found] at inPlace
  exact Option.some.inj inPlace

/-- A block is accepted whose output no node can spend, or put back, once longer
transfer scripts are deployed. -/
theorem accepted_transfer_unreadable :
    (connectBlock env MainNet.rules (MainNet.recording [asset]) MempoolMaps.empty 10 block 0
        view).toOption.isSome = true ∧
      isUnspendable script = false ∧ (getAssetData env script).isSome = true ∧
      env.Later MainNet.env ∧
      trySpendCoin MainNet.env (MainNet.recording [asset]) .empty script = none ∧
      undoAssetCoin MainNet.env (MainNet.recording [asset]) .empty script = none := by
  refine ⟨by decide +kernel, by decide +kernel, by decide +kernel, fun _ => rfl, ?_, ?_⟩
  · exact Option.isNone_iff_eq_none.mp (by decide +kernel)
  · exact Option.isNone_iff_eq_none.mp (by decide +kernel)

end Phicoin
