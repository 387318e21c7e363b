import Phicoin.MempoolAccept

/-! # The main network

The parameters of the main network with every deployment active, with addresses
and outputs on it.  Address checksums need the double SHA-256 of a payload; the
digests of the payloads below are tabulated. -/

namespace Phicoin.MainNet

def burnAddress : Bytes := ascii "PkC3bSAjN99cFg9yQbPYn5sQ89Gnvnnmcf"

def uniform {α : Type} (value : α) : BurnTable α :=
  ⟨value, value, value, value, value, value, value, value, value⟩

/-- `CMainParams` -/
def params : ChainParams where
  network := .main
  pubkeyAddress := [56]
  scriptAddress := [16]
  burnAmount := uniform (coin / 10)
  burnAddress := uniform burnAddress
  devAddress := ascii "PfGy9w5jysV8aVw9eRjDqsydHJdnuxSV89"
  nSubsidyHalvingInterval := 2102400

def burnKey : Bytes :=
  [134, 132, 166, 68, 156, 21, 125, 208, 162, 243, 147, 252, 81, 71, 228, 124, 212, 253, 159, 37]

def devKey : Bytes :=
  [80, 154, 100, 241, 222, 40, 15, 137, 118, 251, 1, 179, 206, 59, 54, 38, 148, 90, 166, 201]

def alice : Bytes := List.replicate 20 0x11

def bob : Bytes := List.replicate 20 0x22

def digests : List (Bytes × Bytes) :=
  [(56 :: burnKey,
    [99, 31, 137, 252, 107, 205, 37, 204, 44, 85, 34, 36, 133, 86, 196, 140, 168, 237, 207, 120,
     111, 110, 103, 119, 176, 86, 27, 104, 138, 60, 71, 121]),
   (56 :: devKey,
    [225, 245, 230, 166, 152, 244, 195, 107, 81, 204, 35, 63, 36, 253, 190, 138, 204, 129, 221,
     238, 247, 206, 250, 112, 163, 250, 107, 86, 23, 245, 146, 54]),
   (56 :: alice,
    [183, 28, 62, 247, 216, 174, 26, 82, 132, 8, 154, 127, 129, 115, 152, 114, 130, 48, 127, 150,
     108, 147, 165, 74, 131, 217, 80, 87, 1, 168, 109, 158]),
   (56 :: bob,
    [186, 9, 91, 102, 149, 94, 105, 207, 179, 89, 217, 225, 60, 141, 150, 60, 66, 39, 171, 228,
     22, 254, 166, 60, 214, 78, 181, 207, 85, 131, 55, 221])]

def hash256 (data : Bytes) : Bytes := (digests.lookup data).getD []

/-- The main network with every deployment active and the default indexes. -/
def env : Env where
  params := params
  hash160 := fun _ => []
  hash256 := hash256
  areAssetsDeployed := true
  isRip5Active := true
  areTransferScriptsSizeDeployed := true
  areEnforcedValuesDeployed := true
  areCoinbaseCheckAssetsDeployed := true
  fReindex := false
  fAssetIndex := false
  fMessaging := true

example : encodeDestination env (.keyId burnKey) = burnAddress := by decide +kernel

def pay (value : Int) (key : Bytes) : TxOut := ⟨value, payToPublicKeyHash key⟩

def transfer (name : Bytes) (amount : Int) : TxOut :=
  ⟨0, AssetTransfer.constructTransaction ⟨name, amount, [], 0⟩ (payToPublicKeyHash alice)⟩

def issue (asset : NewAsset) : TxOut :=
  ⟨0, asset.constructTransaction (payToPublicKeyHash alice)⟩

def owner (asset : NewAsset) : TxOut :=
  ⟨0, asset.constructOwnerTransaction (payToPublicKeyHash alice)⟩

def reissue (record : ReissueAsset) : TxOut :=
  ⟨0, record.constructTransaction (payToPublicKeyHash alice)⟩

def tag (name : Bytes) (flag : Int) (key : Bytes) : TxOut :=
  ⟨0, NullAssetTxData.constructTransaction ⟨name, flag⟩ (nullAssetDataDestination key)⟩

def verifier (text : Bytes) : TxOut := ⟨0, constructVerifierTransaction text []⟩

def transaction (hash : Uint256) (spent : List OutPoint) (vout : List TxOut) : Transaction where
  vin := spent.map fun prevout => ⟨prevout, [], 0xffffffff, []⟩
  vout := vout
  nVersion := 2
  nLockTime := 0
  hash := hash

/-- The coinbase of a block before the first halving, with nothing to claim but
the subsidy. -/
def coinbase (hash : Uint256) : Transaction where
  vin := [⟨⟨0, 0xffffffff⟩, [1, 1], 0xffffffff, []⟩]
  vout := [pay 250000000 alice, pay 250000000 devKey]
  nVersion := 2
  nLockTime := 0
  hash := hash

def block (hash : Uint256) (transactions : List Transaction) : Block :=
  ⟨coinbase (1000 + hash) :: transactions, hash, 0⟩

def rules : BlockRules where
  hashGenesisBlock := 0
  checkHeader := fun _ => .ok ()
  checkSigOps := fun _ => .ok ()
  sequenceLocks := fun _ _ => true
  getTransactionSigOpCost := fun _ _ => 0
  checkInputs := fun _ _ => .ok ()

def coins (held : List (OutPoint × TxOut)) : CoinsView :=
  held.foldl (fun view entry => view.insert entry.1 ⟨entry.2, false, 2⟩) (∅ : KeyedMap OutPoint Coin)

def recording (assets : List NewAsset) : AssetState :=
  { AssetState.initial with
    passetsdb := ⟨assets.foldl (fun db asset => db.insert asset.strName ⟨asset, 1, 1⟩)
      (∅ : KeyedMap Bytes DatabasedAssetData), ∅, ∅⟩ }

/-- The policy outside the assets, for transactions that meet it and a pool within
its limits. -/
def policy : MempoolPolicy where
  fRequireStandard := true
  fEnableReplacement := false
  witnessAllowed := fun _ => true
  isStandardTx := fun _ => .ok ()
  checkFinalTx := fun _ => true
  haveCoinInCache := fun _ => false
  checkSequenceLocks := fun _ _ => true
  areInputsStandard := fun _ _ => true
  isWitnessStandard := fun _ _ => true
  getTransactionSigOpCost := fun _ _ => 0
  getVirtualTransactionSize := fun _ _ => 1
  getMinFee := fun _ _ => 0
  minRelayTxFee := fun _ => 0
  incrementalRelayFee := fun _ => 0
  withinChainLimits := fun _ _ => true
  checkInputs := fun _ _ => .ok ()
  expiryTime := 0
  trimsNext := fun _ => none

def args : AcceptArgs := ⟨0, false, 0, false⟩

def accept (state : AssetState) (coins : CoinsView) (pool : Mempool) (tx : Transaction) :
    Mempool × Check Unit :=
  pool.acceptToMemoryPoolWorker policy env state coins 10 args tx

end Phicoin.MainNet
