import Phicoin.AssetReaders

/-! # Reads of an output script

The classifiers index a script at fixed positions behind one test of its size, and the
parsers copy ranges of it.  Here each read and each copy is refused past the end, and what
is read is what the model's classifiers and parsers read; only a script of 32 bytes whose
marker ends it is read past its end, at the byte of its type. -/

namespace Phicoin

open Check List ByteReader

section

variable (script : Bytes)

/-- `(*this)[i]` -/
def readByte (i : Nat) : Check UInt8 := require? script[i]? "read past the end"

/-- Comparisons of single bytes, each made when those before it hold. -/
def readAll : List (Nat × UInt8) → Check Bool
  | [] => return true
  | (i, byte) :: rest => do
    let found ← readByte script i
    if found = byte then readAll rest else return false

def readTypeIndex : Check (Option Nat) := do
  let push ← readByte script 26
  let marker := if push < opPushdata1 then some 27 else if push = opPushdata1 then some 28
    else if push = opPushdata2 then some 29 else none
  match marker with
  | none => return none
  | some i =>
    let found ← readAll script [(i, phiR), (i + 1, phiV), (i + 2, phiN)]
    return if found then some (i + 3) else none

/-- `CScript::IsAssetScript` -/
def readAssetScript : Check (Option AssetScript) := do
  if script.length > 31 then
    if ← readAll script [(25, opPhiAsset)] then
      match ← readTypeIndex script with
      | none => return none
      | some index =>
        let type ← readByte script index
        return if type = phiT then some ⟨.transferAsset, false, index + 1⟩
          else if type = phiQ && script.length > 39 then some ⟨.newAsset, false, index + 1⟩
          else if type = phiO then some ⟨.newAsset, true, index + 1⟩
          else if type = phiR then some ⟨.reissueAsset, false, index + 1⟩
          else none
    else return none
  else return none

/-- The null-asset predicates: a size and comparisons. -/
def readSized (size : Nat) (bytes : List (Nat × UInt8)) : Check Bool :=
  if script.length > size then readAll script bytes else return false

def readNullAsset : Check Bool := readSized script 23 [(0, opPhiAsset), (1, 0x14)]

def readNullGlobalRestriction : Check Bool :=
  readSized script 6 [(0, opPhiAsset), (1, opReserved), (2, opReserved)]

def readNullVerifier : Check Bool := do
  if ← readSized script 3 [(0, opPhiAsset), (1, opReserved)] then
    return (← readByte script 2) ≠ opReserved
  else return false

/-- The bytes from `first` up to `last`. -/
def copy (first last : Nat) : Check Bytes :=
  if first ≤ last ∧ last ≤ script.length then .ok ((script.drop first).take (last - first))
  else .error "read past the end"

/-- `Solver` -/
def readSolver : Check (Option (TxnOutType × List Bytes)) := do
  if isPayToScriptHash script then
    let hashBytes ← copy script 2 22
    return some (.scriptHash, [hashBytes])
  else match ← readAssetScript script with
  | some info =>
    let hashBytes ← copy script 3 23
    return some (info.nType, [hashBytes])
  | none =>
    if (isWitnessProgram script).isNone && !(script.length ≥ 1 && byteAt script 0 = opReturn &&
          isPushOnly (script.drop 1)) &&
        (script.length ≥ 1 && byteAt script 0 = opPhiAsset && isPushOnly (script.drop 1)) &&
        (script.length ≥ 23 && byteAt script 1 ≠ opReserved) then
      let hashBytes ← copy script 2 22
      return some (.restrictedAssetData, [hashBytes])
    -- the other scripts are read through `GetOp`, which stops at the end
    else return solver script

variable (env : Env)

/-- `ExtractDestination` -/
def readDestination : Check TxDestination := do
  match ← readSolver script with
  | some (.pubkey, key :: _) =>
    return if isValidPubKey key then .keyId (env.hash160 key) else .noDestination
  | some (.scriptHash, id :: _) => return .scriptId id
  | some (.pubkeyHash, id :: _) | some (.newAsset, id :: _) | some (.reissueAsset, id :: _)
  | some (.transferAsset, id :: _) | some (.restrictedAssetData, id :: _) => return .keyId id
  | _ => return .noDestination

def startOf (nType : TxnOutType) (fIsOwner : Bool) (info : AssetScript) : Option Nat :=
  if info.nType = nType && info.fIsOwner = fIsOwner then some info.nStartingIndex else none

/-- The parsers of asset outputs: the kind of the output, where its record starts, and how it
is read. -/
def readFromScript {α : Type} (start : AssetScript → Option Nat) (reader : Reader α) :
    Check (Option (α × Bytes)) := do
  match (← readAssetScript script).bind start with
  | none => return none
  | some offset =>
    let destination ← readDestination script env
    let data ← copy script offset script.length
    return (reader data).map fun read => (read.1, encodeDestination env destination)

def readTransferAssetFromScript : Check (Option (AssetTransfer × Bytes)) :=
  readFromScript script env (fun info => (startOf .transferAsset false info).map fun start =>
    if env.areTransferScriptsSizeDeployed then start else 31) readAssetTransfer

def readAssetFromScript : Check (Option (NewAsset × Bytes)) :=
  readFromScript script env (startOf .newAsset false) readNewAsset

def readOwnerAssetFromScript : Check (Option (Bytes × Bytes)) :=
  readFromScript script env (startOf .newAsset true) readText

def readReissueAssetFromScript : Check (Option (ReissueAsset × Bytes)) :=
  readFromScript script env (startOf .reissueAsset false) readReissueAsset

/-- The parsers of issuances of one type, which read the record once for its name. -/
def readNewAssetOf (accepted : AssetType → Bool) : Check (Option (NewAsset × Bytes)) := do
  match ← readAssetFromScript script env with
  | none => return none
  | some (asset, _) =>
    match isAssetNameValid asset.strName with
    | .ok type => if accepted type then readAssetFromScript script env else return none
    | .error _ => return none

def readMsgChannelAssetFromScript : Check (Option (NewAsset × Bytes)) :=
  readNewAssetOf script env (· = .msgChannel)

def readQualifierAssetFromScript : Check (Option (NewAsset × Bytes)) :=
  readNewAssetOf script env fun type => type = .qualifier || type = .subQualifier

def readRestrictedAssetFromScript : Check (Option (NewAsset × Bytes)) :=
  readNewAssetOf script env (· = .restricted)

/-- The parsers of null-asset outputs. -/
def readNullData {α : Type} (isNull : Check Bool) (offset : Nat) (reader : Reader α) :
    Check (Option α) := do
  if ← isNull then
    let data ← copy script offset script.length
    return (reader data).map Prod.fst
  else return none

def readAssetNullDataFromScript : Check (Option (NullAssetTxData × Bytes)) := do
  if ← readNullAsset script then
    let destination ← readDestination script env
    let data ← copy script 23 script.length
    return (readNullAssetTxData data).map fun read => (read.1, encodeDestination env destination)
  else return none

def readGlobalAssetNullDataFromScript : Check (Option NullAssetTxData) :=
  readNullData script (readNullGlobalRestriction script) 4 readNullAssetTxData

def readAssetNullVerifierDataFromScript : Check (Option Bytes) :=
  readNullData script (readNullVerifier script) 3 readText

end

/-- The marker ends the script, and the byte of the type is missing. -/
def Truncated (script : Bytes) : Prop :=
  script.length = 32 ∧ byteAt script 25 = opPhiAsset ∧ byteAt script 26 = opPushdata2 ∧
    markerAt script 29 = true

variable {script : Bytes}

theorem readByte_eq {i : Nat} (inside : i < script.length) :
    readByte script i = .ok (byteAt script i) := by
  simp [readByte, byteAt, require?, inside]

section

variable {bytes : List (Nat × UInt8)}

theorem readAll_eq (inside : ∀ byte ∈ bytes, byte.1 < script.length) :
    readAll script bytes = .ok (bytes.all fun byte => byteAt script byte.1 = byte.2) := by
  induction bytes with
  | nil => rfl
  | cons byte rest ih =>
    rw [forall_mem_cons] at inside
    rw [readAll, readByte_eq inside.1, all_cons]
    change (if _ then _ else _) = _
    split_ifs with same
    · rw [ih inside.2, decide_eq_true same, Bool.true_and]
    · rw [decide_eq_false same, Bool.false_and]
      rfl

theorem readSized_eq {size : Nat} (inside : ∀ byte ∈ bytes, byte.1 ≤ size) :
    readSized script size bytes = .ok (script.length > size &&
      bytes.all fun byte => byteAt script byte.1 = byte.2) := by
  unfold readSized
  split_ifs with long
  · rw [readAll_eq fun byte member => (inside byte member).trans_lt long, decide_eq_true long,
      Bool.true_and]
  · rw [decide_eq_false long, Bool.false_and]
    rfl

end

theorem readTypeIndex_eq (long : 31 < script.length) :
    readTypeIndex script = .ok (assetTypeIndex script) := by
  have marker : ∀ i, i ≤ 29 → readAll script [(i, phiR), (i + 1, phiV), (i + 2, phiN)] =
      .ok (markerAt script i) := by
    intro i small
    rw [readAll_eq (by simp; omega), markerAt]
    simp [Bool.and_assoc]
  unfold readTypeIndex assetTypeIndex
  rw [readByte_eq (by omega)]
  simp only [bind, Except.bind]
  split_ifs <;> simp_all [pure, Except.pure]

section

variable (whole : ¬ Truncated script)

include whole

theorem assetTypeIndex_lt {index : Nat} (long : 31 < script.length)
    (asset : byteAt script 25 = opPhiAsset) (found : assetTypeIndex script = some index) :
    index < script.length := by
  unfold assetTypeIndex at found
  split_ifs at found with _ _ _ _ push marker <;> cases found
  · omega
  · omega
  · by_contra short
    exact whole ⟨by omega, asset, push, marker⟩

theorem readAssetScript_eq : readAssetScript script = .ok (isAssetScript script) := by
  unfold readAssetScript isAssetScript
  by_cases long : script.length > 31
  · rw [if_pos long, readAll_eq (by simp; omega)]
    by_cases asset : byteAt script 25 = opPhiAsset
    · cases found : assetTypeIndex script with
      | none =>
        simp [readTypeIndex_eq long, found, asset, long, pure, Except.pure, bind, Except.bind]
      | some index =>
        have inside := assetTypeIndex_lt whole long asset found
        simp [readTypeIndex_eq long, found, asset, long, readByte_eq inside, pure, Except.pure,
          bind, Except.bind]
    · simp [asset, pure, Except.pure, bind, Except.bind]
  · rw [if_neg long, if_neg (by simp [long])]
    rfl

theorem start_le {info : AssetScript} (found : isAssetScript script = some info) :
    info.nStartingIndex ≤ script.length := by
  obtain ⟨long, asset⟩ := length_of_isAssetScript found
  unfold isAssetScript at found
  cases atIndex : assetTypeIndex script with
  | none => simp [atIndex] at found
  | some index =>
    have inside := assetTypeIndex_lt whole long asset atIndex
    simp only [atIndex] at found
    split_ifs at found <;> cases found <;> exact inside

end

theorem readAssetScript_truncated (truncated : Truncated script) :
    readAssetScript script = .error "read past the end" := by
  obtain ⟨size, asset, push, marker⟩ := truncated
  have index : assetTypeIndex script = some 32 := by
    rw [assetTypeIndex, push, if_neg (by decide), if_neg (by decide), if_pos rfl, if_pos marker]
  have missing : readByte script 32 = .error "read past the end" := by
    simp [readByte, require?, size]
  unfold readAssetScript
  rw [if_pos (by omega), readAll_eq (by simp; omega), readTypeIndex_eq (by omega), index]
  simp [asset, missing, bind, Except.bind]

theorem readNullVerifier_eq (script : Bytes) :
    readNullVerifier script = .ok (isNullAssetVerifierTxDataScript script) := by
  unfold readNullVerifier isNullAssetVerifierTxDataScript
  rw [readSized_eq (by simp)]
  by_cases long : script.length > 3
  · rw [readByte_eq (by omega)]
    by_cases both : byteAt script 0 = opPhiAsset ∧ byteAt script 1 = opReserved <;>
      simp [long, both, pure, Except.pure, bind, Except.bind]
  · simp [long, pure, Except.pure, bind, Except.bind]

theorem readNullAsset_eq (script : Bytes) :
    readNullAsset script = .ok (isNullAssetTxDataScript script) := by
  rw [readNullAsset, readSized_eq (by simp)]
  simp [isNullAssetTxDataScript, Bool.and_assoc]

theorem readNullGlobalRestriction_eq (script : Bytes) : readNullGlobalRestriction script =
    .ok (isNullGlobalRestrictionAssetTxDataScript script) := by
  rw [readNullGlobalRestriction, readSized_eq (by simp)]
  simp [isNullGlobalRestrictionAssetTxDataScript, Bool.and_assoc]

theorem copy_eq {first last : Nat} (range : first ≤ last) (inside : last ≤ script.length) :
    copy script first last = .ok ((script.drop first).take (last - first)) :=
  if_pos ⟨range, inside⟩

theorem copy_rest {first : Nat} (inside : first ≤ script.length) :
    copy script first script.length = .ok (script.drop first) := by
  rw [copy_eq inside (Nat.le_refl _), take_of_length_le (by simp)]

theorem readSolver_eq (whole : ¬ Truncated script) : readSolver script = .ok (solver script) := by
  unfold readSolver
  by_cases isHash : isPayToScriptHash script = true
  · have size : script.length = 23 := by
      simp only [isPayToScriptHash, Bool.and_eq_true, decide_eq_true_eq] at isHash
      exact isHash.1.1.1
    rw [if_pos isHash, copy_eq (by omega) (by omega), solver, if_pos isHash]
    rfl
  · rw [if_neg isHash, readAssetScript_eq whole]
    cases found : isAssetScript script with
    | some info =>
      have long := (length_of_isAssetScript found).1
      dsimp only [bind, Except.bind]
      rw [copy_eq (by omega) (by omega), solver, if_neg isHash, found]
      rfl
    | none =>
      dsimp only [bind, Except.bind]
      split_ifs with null
      · obtain ⟨null, key⟩ := Bool.and_eq_true_iff.mp null
        obtain ⟨null, data⟩ := Bool.and_eq_true_iff.mp null
        obtain ⟨witness, noReturn⟩ := Bool.and_eq_true_iff.mp null
        have size : 23 ≤ script.length := of_decide_eq_true (Bool.and_eq_true_iff.mp key).1
        rw [copy_eq (by omega) (by omega), solver, if_neg isHash, found]
        dsimp only
        rw [Option.isNone_iff_eq_none.mp witness]
        dsimp only
        rw [(Bool.not_eq_true' _).mp noReturn, if_neg Bool.false_ne_true, if_pos data, if_pos key]
        rfl
      · rfl

theorem readDestination_eq (env : Env) (whole : ¬ Truncated script) :
    readDestination script env = .ok (extractDestination env script) := by
  unfold readDestination extractDestination
  rw [readSolver_eq whole]
  dsimp only [bind, Except.bind]
  split <;> simp_all [pure, Except.pure]

section

variable {α : Type} {env : Env} {start : AssetScript → Option Nat} {reader : Reader α}

theorem readFromScript_eq (whole : ¬ Truncated script)
    (inside : ∀ info offset, isAssetScript script = some info → start info = some offset →
      offset ≤ script.length) :
    readFromScript script env start reader = .ok (((isAssetScript script).bind start).bind
      fun offset => (readAt reader offset script).bind fun read =>
        some (read, scriptAddress env script)) := by
  unfold readFromScript
  rw [readAssetScript_eq whole]
  dsimp only [bind, Except.bind]
  cases found : (isAssetScript script).bind start with
  | none => rfl
  | some offset =>
    obtain ⟨info, isAsset, starts⟩ := Option.bind_eq_some_iff.mp found
    dsimp only
    rw [readDestination_eq env whole, copy_rest (inside info offset isAsset starts)]
    dsimp only [Option.bind_some, readAt, pure, Except.pure]
    cases reader (script.drop offset) <;> rfl

theorem readFromScript_truncated (truncated : Truncated script) :
    readFromScript script env start reader = .error "read past the end" := by
  unfold readFromScript
  rw [readAssetScript_truncated truncated]
  rfl

end

theorem startOf_le (whole : ¬ Truncated script) {nType : TxnOutType} {fIsOwner : Bool}
    (info : AssetScript) (offset : Nat) (found : isAssetScript script = some info)
    (starts : startOf nType fIsOwner info = some offset) : offset ≤ script.length := by
  unfold startOf at starts
  split_ifs at starts
  obtain rfl := Option.some_inj.mp starts
  exact start_le whole found

theorem assetScriptOf_eq (nType : TxnOutType) (fIsOwner : Bool) :
    assetScriptOf nType fIsOwner script = (isAssetScript script).bind (startOf nType fIsOwner) := by
  unfold assetScriptOf startOf
  cases isAssetScript script <;> rfl

section

variable (env : Env) (whole : ¬ Truncated script)

include whole

theorem readTransferAssetFromScript_eq : readTransferAssetFromScript script env =
    .ok (transferAssetFromScript env script) := by
  have starts : ∀ info offset, isAssetScript script = some info →
      ((startOf .transferAsset false info).map fun start =>
        if env.areTransferScriptsSizeDeployed then start else 31) = some offset →
      offset ≤ script.length := by
    intro info offset found starts
    obtain ⟨start, isTransfer, rfl⟩ := Option.map_eq_some_iff.mp starts
    split
    · exact startOf_le whole info start found isTransfer
    · exact Nat.le_of_lt (length_of_isAssetScript found).1
  rw [readTransferAssetFromScript, readFromScript_eq whole starts, transferAssetFromScript,
    isScriptTransferAsset, assetScriptOf_eq]
  cases isAssetScript script with
  | none => rfl
  | some info => cases found : startOf .transferAsset false info <;> simp [found]

theorem readAssetFromScript_eq :
    readAssetFromScript script env = .ok (assetFromScript env script) := by
  rw [readAssetFromScript, readFromScript_eq whole (startOf_le whole), ← assetScriptOf_eq]
  rfl

theorem readOwnerAssetFromScript_eq :
    readOwnerAssetFromScript script env = .ok (ownerAssetFromScript env script) := by
  rw [readOwnerAssetFromScript, readFromScript_eq whole (startOf_le whole), ← assetScriptOf_eq]
  rfl

theorem readReissueAssetFromScript_eq :
    readReissueAssetFromScript script env = .ok (reissueAssetFromScript env script) := by
  rw [readReissueAssetFromScript, readFromScript_eq whole (startOf_le whole), ← assetScriptOf_eq]
  rfl

theorem readNewAssetOf_eq (accepted : AssetType → Bool) : readNewAssetOf script env accepted =
    .ok (if isScriptNewAssetOf accepted env script then assetFromScript env script else none) := by
  unfold readNewAssetOf
  rw [readAssetFromScript_eq env whole]
  dsimp only [bind, Except.bind]
  cases found : assetFromScript env script with
  | none => exact congrArg Except.ok (ite_self none).symm
  | some read =>
    dsimp only
    cases valid : isAssetNameValid read.1.strName with
    | ok type =>
      have isNew : isScriptNewAssetOf accepted env script = accepted type := by
        simp only [isScriptNewAssetOf, found, valid]
      rw [isNew]
      dsimp only
      cases accepted type <;> rfl
    | error reason =>
      have notNew : isScriptNewAssetOf accepted env script = false := by
        simp only [isScriptNewAssetOf, found, valid]
      rw [notNew]
      rfl

theorem readAssetNullDataFromScript_eq : readAssetNullDataFromScript script env =
    .ok (assetNullDataFromScript env script) := by
  unfold readAssetNullDataFromScript assetNullDataFromScript
  rw [readNullAsset_eq]
  cases null : isNullAssetTxDataScript script with
  | false => rfl
  | true =>
    have long : 23 ≤ script.length := by
      simp only [isNullAssetTxDataScript, Bool.and_eq_true, decide_eq_true_eq] at null
      omega
    dsimp only [bind, Except.bind]
    rw [if_pos rfl, if_pos rfl, readDestination_eq env whole, copy_rest long]
    dsimp only [readAt, pure, Except.pure]
    cases readNullAssetTxData (script.drop 23) <;> rfl

end

theorem readNullData_eq {α : Type} {isNull : Check Bool} {found : Bool} {offset : Nat}
    {reader : Reader α} (is : isNull = .ok found)
    (inside : found = true → offset ≤ script.length) : readNullData script isNull offset reader =
      .ok (if found then readAt reader offset script else none) := by
  unfold readNullData
  rw [is]
  cases found with
  | false => rfl
  | true =>
    dsimp only [bind, Except.bind]
    rw [if_pos rfl, copy_rest (inside rfl)]
    rfl

/-- Every classifier and every parser reads what it reads without a read past the end, and the
starting index is in the script. -/
structure ReadsInRange (env : Env) (script : Bytes) : Prop where
  assetScript : readAssetScript script = .ok (isAssetScript script)
  start : ∀ info, isAssetScript script = some info → info.nStartingIndex ≤ script.length
  nullAsset : readNullAsset script = .ok (isNullAssetTxDataScript script)
  nullGlobal : readNullGlobalRestriction script =
    .ok (isNullGlobalRestrictionAssetTxDataScript script)
  nullVerifier : readNullVerifier script = .ok (isNullAssetVerifierTxDataScript script)
  transfer : readTransferAssetFromScript script env = .ok (transferAssetFromScript env script)
  asset : readAssetFromScript script env = .ok (assetFromScript env script)
  msgChannel : readMsgChannelAssetFromScript script env =
    .ok (msgChannelAssetFromScript env script)
  qualifier : readQualifierAssetFromScript script env = .ok (qualifierAssetFromScript env script)
  restricted : readRestrictedAssetFromScript script env =
    .ok (restrictedAssetFromScript env script)
  owner : readOwnerAssetFromScript script env = .ok (ownerAssetFromScript env script)
  reissue : readReissueAssetFromScript script env = .ok (reissueAssetFromScript env script)
  nullData : readAssetNullDataFromScript script env = .ok (assetNullDataFromScript env script)
  globalNullData : readGlobalAssetNullDataFromScript script =
    .ok (globalAssetNullDataFromScript script)
  verifierNullData : readAssetNullVerifierDataFromScript script =
    .ok (assetNullVerifierDataFromScript script)

/-- Every read is in range exactly when the script is not truncated; a truncated one
is read past its end by `IsAssetScript` and by every parser of asset outputs. -/
theorem script_reads_in_range_iff (env : Env) (script : Bytes) :
    (ReadsInRange env script ↔ ¬ Truncated script) ∧
    (Truncated script → readAssetScript script = .error "read past the end" ∧
      ∀ (α : Type) (start : AssetScript → Option Nat) (reader : Reader α),
        readFromScript script env start reader = .error "read past the end") := by
  refine ⟨⟨fun inRange truncated => ?_, fun whole => ?_⟩, fun truncated =>
    ⟨readAssetScript_truncated truncated, fun _ _ _ => readFromScript_truncated truncated⟩⟩
  · have same := inRange.assetScript
    rw [readAssetScript_truncated truncated] at same
    cases same
  · exact {
      assetScript := readAssetScript_eq whole
      start := fun info => start_le whole
      nullAsset := readNullAsset_eq script
      nullGlobal := readNullGlobalRestriction_eq script
      nullVerifier := readNullVerifier_eq script
      transfer := readTransferAssetFromScript_eq env whole
      asset := readAssetFromScript_eq env whole
      msgChannel := readNewAssetOf_eq env whole _
      qualifier := readNewAssetOf_eq env whole _
      restricted := readNewAssetOf_eq env whole _
      owner := readOwnerAssetFromScript_eq env whole
      reissue := readReissueAssetFromScript_eq env whole
      nullData := readAssetNullDataFromScript_eq env whole
      globalNullData := readNullData_eq (readNullGlobalRestriction_eq script) fun null => by
        simp only [isNullGlobalRestrictionAssetTxDataScript, Bool.and_eq_true,
          decide_eq_true_eq] at null
        omega
      verifierNullData := readNullData_eq (readNullVerifier_eq script) fun null => by
        simp only [isNullAssetVerifierTxDataScript, Bool.and_eq_true, decide_eq_true_eq] at null
        omega }

theorem truncated_script_is_read_past_its_end :
    readAssetScript (replicate 25 0 ++ [opPhiAsset, opPushdata2, 0, 0, phiR, phiV, phiN]) =
      .error "read past the end" := by
  decide +kernel

end Phicoin
