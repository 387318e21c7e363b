import Phicoin.Assets

/-! # Transactions

Transactions, and the predicates that sort them into issuances, reissues and
the rest.  Each predicate looks at fixed output positions (the last output, for
a root issuance also the one before it), and each `verify…` function is the
format check of the kind its predicate selects. -/

namespace Phicoin

open TwosComplement Check

abbrev Uint256 := Nat

structure OutPoint where
  hash : Uint256
  n : Nat
deriving DecidableEq

def OutPoint.isNull (out : OutPoint) : Bool := out.hash = 0 && out.n = 0xffffffff

/-- `CTxIn`, with its witness stack. -/
structure TxIn where
  prevout : OutPoint
  scriptSig : Bytes
  nSequence : Nat
  scriptWitness : List Bytes
deriving DecidableEq

structure TxOut where
  nValue : Int
  scriptPubKey : Bytes
deriving DecidableEq

/-- `CTransaction` with its cached hash. -/
structure Transaction where
  vin : List TxIn
  vout : List TxOut
  nVersion : Int
  nLockTime : Nat
  hash : Uint256
deriving DecidableEq

namespace Transaction

def isCoinBase (tx : Transaction) : Bool :=
  match tx.vin with
  | [input] => input.prevout.isNull
  | _ => false

def lastScript (tx : Transaction) : Bytes :=
  match tx.vout.getLast? with
  | some out => out.scriptPubKey
  | none => []

def secondLastScript (tx : Transaction) : Bytes :=
  match tx.vout[tx.vout.length - 2]? with
  | some out => out.scriptPubKey
  | none => []

/-- `GetValueOut`; refused where the source throws. -/
def getValueOut (tx : Transaction) (fAreEnforcedValues : Bool) : Check Int :=
  tx.vout.foldlM (fun nValueOut out =>
    if !fAreEnforcedValues && (isAssetScript out.scriptPubKey).isSome then pure nValueOut
    else do
      let total := addAmount nValueOut out.nValue
      require (moneyRange out.nValue && moneyRange total) "GetValueOut: value out of range"
      return total) 0

end Transaction

/-- The counters of `GetTxOutAssetTypes`. -/
structure AssetCounts where
  issues : Nat
  reissues : Nat
  transfers : Nat
  owners : Nat

def countOutputs (vout : List TxOut) (nType : TxnOutType) (fIsOwner : Bool) : Nat :=
  vout.countP fun out => (assetScriptOf nType fIsOwner out.scriptPubKey).isSome

def getTxOutAssetTypes (vout : List TxOut) : AssetCounts where
  issues := countOutputs vout .newAsset false
  reissues := countOutputs vout .reissueAsset false
  transfers := countOutputs vout .transferAsset false
  owners := countOutputs vout .newAsset true

/-- An output that pays exactly `amount` to the address `burnAddress`. -/
def paysToAddress (env : Env) (out : TxOut) (amount : Int) (burnAddress : Bytes) : Bool :=
  out.nValue = amount &&
    isValidDestination (extractDestination env out.scriptPubKey) &&
    scriptAddress env out.scriptPubKey = burnAddress

def checkIssueBurnTx (env : Env) (out : TxOut) (type : AssetType) (numberIssued : Nat) : Bool :=
  if type = .reissue || type = .vote || type = .owner || type = .invalid then false
  else paysToAddress env out (wrap 64 (getBurnAmount env type * numberIssued))
    (getBurnAddress env type)

def checkReissueBurnTx (env : Env) (out : TxOut) : Bool :=
  paysToAddress env out env.params.burnAmount.reissueAsset env.params.burnAddress.reissueAsset

namespace Transaction

variable (env : Env) (tx : Transaction)

def hasIssueBurn (type : AssetType) (numberIssued : Nat) : Bool :=
  tx.vout.any fun out => checkIssueBurnTx env out type numberIssued

def checkAddingTagBurnFee (count : Nat) : Bool := tx.hasIssueBurn env .nullAddQualifier count

def hasTransferOf (name : Bytes) : Bool :=
  tx.vout.any fun out =>
    match transferAssetFromScript env out.scriptPubKey with
    | some (transfer, _) => name = transfer.strName
    | none => false

def isNewAsset : Bool :=
  tx.vout.length ≥ 3 && isNewAssetScript tx.lastScript &&
    isOwnerAssetScript tx.secondLastScript &&
    !(isScriptNewUniqueAsset env tx.lastScript || isScriptNewRestrictedAsset env tx.lastScript)

def isReissueAsset : Bool := isReissueAssetScript tx.lastScript

def isNewUniqueAsset : Bool :=
  isNewAssetScript tx.lastScript && isScriptNewUniqueAsset env tx.lastScript

def isNewMsgChannelAsset : Bool :=
  isNewAssetScript tx.lastScript && isScriptNewMsgChannelAsset env tx.lastScript

def isNewQualifierAsset : Bool :=
  isNewAssetScript tx.lastScript && isScriptNewQualifierAsset env tx.lastScript

def isNewRestrictedAsset : Bool :=
  isNewAssetScript tx.lastScript && isScriptNewRestrictedAsset env tx.lastScript

def assetFromTransaction : Option (NewAsset × Bytes) :=
  if tx.isNewAsset env then assetFromScript env tx.lastScript else none

def ownerFromTransaction : Option (Bytes × Bytes) :=
  if tx.isNewAsset env then ownerAssetFromScript env tx.secondLastScript else none

def reissueAssetFromTransaction : Option (ReissueAsset × Bytes) :=
  if tx.isReissueAsset then reissueAssetFromScript env tx.lastScript else none

def msgChannelAssetFromTransaction : Option (NewAsset × Bytes) :=
  if tx.isNewMsgChannelAsset env then msgChannelAssetFromScript env tx.lastScript else none

def qualifierAssetFromTransaction : Option (NewAsset × Bytes) :=
  if tx.isNewQualifierAsset env then qualifierAssetFromScript env tx.lastScript else none

def restrictedAssetFromTransaction : Option (NewAsset × Bytes) :=
  if tx.isNewRestrictedAsset env then restrictedAssetFromScript env tx.lastScript else none

/-- `GetVerifierStringFromTx`: the one verifier output, `none` when there is
none at all (`fNotFound`). -/
def getVerifierStringFromTx : Check (Option Bytes) :=
  tx.vout.foldlM (fun found out =>
    if isNullAssetVerifierTxDataScript out.scriptPubKey then do
      require found.isNone "Multiple verifier strings found in transaction"
      let verifier ← require? (assetNullVerifierDataFromScript out.scriptPubKey)
        "Failed to get verifier string from output: "
      return some verifier
    else pure found) none

def requireVerifierString : Check Bytes := do
  require? (← tx.getVerifierStringFromTx) "Verifier string not found"

/-- The accumulator of the loop over the unique outputs of a transaction. -/
structure UniqueScan where
  assetRoot : Bytes
  setUniqueAssets : List Bytes

def scanUnique (scan : UniqueScan) (out : TxOut) : Check UniqueScan :=
  if isScriptNewUniqueAsset env out.scriptPubKey then do
    let (asset, _) ← require? (assetFromScript env out.scriptPubKey)
      "bad-txns-issue-unique-asset-from-script"
    let root := getParentName asset.strName
    let assetRoot := if scan.assetRoot = [] then root else scan.assetRoot
    require (assetRoot = root) "bad-txns-issue-unique-asset-compare-failed"
    require (!scan.setUniqueAssets.contains asset.strName)
      "bad-txns-issue-unique-duplicate-name-in-same-tx"
    return ⟨assetRoot, asset.strName :: scan.setUniqueAssets⟩
  else pure scan

def verifyNewUniqueAsset : Check Unit := do
  require (3 ≤ tx.vout.length) "bad-txns-unique-vout-size-to-small"
  let scan ← tx.vout.foldlM (scanUnique env) ⟨[], []⟩
  let assetOutpointCount := scan.setUniqueAssets.length
  require (assetOutpointCount ≠ 0) "bad-txns-issue-unique-asset-bad-outpoint-count"
  require (tx.hasIssueBurn env .unique assetOutpointCount)
    "bad-txns-issue-unique-asset-burn-outpoints-not-found"
  require (tx.hasTransferOf env (scan.assetRoot ++ ownerTag))
    "bad-txns-issue-unique-asset-missing-owner-asset"
  let counts := getTxOutAssetTypes tx.vout
  require (counts.owners = 0 && counts.reissues = 0 && counts.issues = assetOutpointCount)
    "bad-txns-failed-unique-asset-formatting-check"

def verifyNewAsset : Check Unit := do
  require (3 ≤ tx.vout.length) "bad-txns-issue-vout-size-to-small"
  require (isNewAssetScript tx.lastScript) "bad-txns-issue-data-not-found"
  require (isOwnerAssetScript tx.secondLastScript) "bad-txns-issue-owner-data-not-found"
  let (asset, _) ← require? (assetFromScript env tx.lastScript)
    "bad-txns-issue-serialzation-failed"
  let assetType := assetNameType asset.strName
  let (strOwnerName, _) ← require? (ownerAssetFromScript env tx.secondLastScript)
    "bad-txns-issue-owner-serialzation-failed"
  require (strOwnerName = asset.strName ++ ownerTag) "bad-txns-issue-owner-name-doesn't-match"
  require (tx.hasIssueBurn env assetType 1) "bad-txns-issue-burn-not-found"
  require (assetType ≠ .sub || tx.hasTransferOf env (getParentName asset.strName ++ ownerTag))
    "bad-txns-issue-new-asset-missing-owner-asset"
  let counts := getTxOutAssetTypes tx.vout
  require (counts.owners = 1 && counts.issues = 1 && counts.reissues = 0)
    "bad-txns-failed-issue-asset-formatting-check"

def verifyNewMsgChannelAsset : Check Unit := do
  require (3 ≤ tx.vout.length) "bad-txns-issue-msgchannel-vout-size-to-small"
  require (isNewAssetScript tx.lastScript) "bad-txns-issue-data-not-found"
  let (asset, _) ← require? (msgChannelAssetFromScript env tx.lastScript)
    "bad-txns-issue-msgchannel-serialzation-failed"
  require (tx.hasIssueBurn env .msgChannel 1) "bad-txns-issue-msgchannel-burn-not-found"
  require (tx.hasTransferOf env (getParentName asset.strName ++ ownerTag))
    "bad-txns-issue-msg-channel-asset-bad-owner-asset"
  let counts := getTxOutAssetTypes tx.vout
  require (counts.owners = 0 && counts.issues = 1 && counts.reissues = 0)
    "bad-txns-failed-issue-msgchannel-asset-formatting-check"

def verifyNewQualfierAsset : Check Unit := do
  require (2 ≤ tx.vout.length) "bad-txns-issue-qualifier-vout-size-to-small"
  require (isNewAssetScript tx.lastScript) "bad-txns-issue-qualifider-data-not-found"
  let (asset, _) ← require? (qualifierAssetFromScript env tx.lastScript)
    "bad-txns-issue-qualifier-serialzation-failed"
  let assetType := assetNameType asset.strName
  require (tx.hasIssueBurn env assetType 1) "bad-txns-issue-qualifier-burn-not-found"
  require (assetType ≠ .subQualifier || tx.hasTransferOf env (getParentName asset.strName))
    "bad-txns-issue-sub-qualifier-parent-outpoint-not-found"
  let counts := getTxOutAssetTypes tx.vout
  require (counts.owners = 0 && counts.issues = 1 && counts.reissues = 0)
    "bad-txns-failed-issue-asset-formatting-check"

def verifyNewRestrictedAsset : Check Unit := do
  require (4 ≤ tx.vout.length) "bad-txns-issue-restricted-vout-size-to-small"
  require (isNewAssetScript tx.lastScript) "bad-txns-issue-restricted-data-not-found"
  let (asset, _) ← require? (restrictedAssetFromScript env tx.lastScript)
    "bad-txns-issue-restricted-serialization-failed"
  let assetType := assetNameType asset.strName
  require (tx.hasIssueBurn env assetType 1) "bad-txns-issue-restricted-burn-not-found"
  let strippedRoot := (getParentName asset.strName).drop 1 ++ ownerTag
  require (tx.hasTransferOf env strippedRoot)
    "bad-txns-issue-restricted-root-owner-token-outpoint-not-found"
  let _ ← tx.requireVerifierString
  let counts := getTxOutAssetTypes tx.vout
  require (counts.owners = 0 && counts.issues = 1 && counts.reissues = 0)
    "bad-txns-failed-issue-asset-formatting-check"

def reissueAuthority (reissue : ReissueAsset) : Bytes :=
  if assetNameType reissue.strName = .restricted then reissue.strName.drop 1
  else reissue.strName

def verifyReissueAsset : Check Unit := do
  require (3 ≤ tx.vout.length) "bad-txns-vout-size-to-small"
  require (isReissueAssetScript tx.lastScript) "bad-txns-reissue-data-not-found"
  let (reissue, _) ← require? (reissueAssetFromScript env tx.lastScript)
    "bad-txns-reissue-serialization-failed"
  require (tx.hasTransferOf env (reissueAuthority reissue ++ ownerTag))
    "bad-txns-reissue-owner-outpoint-not-found"
  require (tx.vout.any (checkReissueBurnTx env)) "bad-txns-reissue-burn-outpoint-not-found"
  let counts := getTxOutAssetTypes tx.vout
  require (counts.owners = 0 && counts.reissues = 1 && counts.issues = 0)
    "bad-txns-failed-reissue-asset-formatting-check"

def isNewOwnerTxValid (assetName address : Bytes) : Check Unit := do
  let (ownerName, ownerAddress) ← require? (tx.ownerFromTransaction env) "bad-txns-bad-owner"
  require (ownerAddress = address) "bad-txns-owner-address-mismatch"
  require (1 + minAssetLength ≤ ownerName.length) "bad-txns-owner-asset-length"
  require (ownerName = assetName ++ ownerTag) "bad-txns-owner-name-mismatch"

end Transaction

end Phicoin
