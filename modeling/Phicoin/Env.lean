import Phicoin.Script

/-! # Amounts, asset types and the environment of validation

Validation reads parameters that no transaction changes: the chain parameters,
which deployments are active, and the hash functions.  They are gathered in
`Env`, and every function that reads one of them takes it as an argument. -/

namespace Phicoin

open TwosComplement

def coin : Int := 100000000

def maxMoney : Int := 50000000000 * coin

def moneyRange (value : Int) : Bool := 0 ≤ value && value ≤ maxMoney

/-- Addition of two `CAmount`s. -/
def addAmount (x y : Int) : Int := wrapAdd 64 x y

def ownerAssetAmount : Int := 1 * coin
def uniqueAssetAmount : Int := 1 * coin
def qualifierAssetMinAmount : Int := 1 * coin
def qualifierAssetMaxAmount : Int := 10 * coin

inductive AssetType where
  | root
  | sub
  | unique
  | msgChannel
  | qualifier
  | subQualifier
  | restricted
  | vote
  | reissue
  | owner
  | nullAddQualifier
  | invalid
deriving DecidableEq

structure BurnTable (α : Type) where
  issueAsset : α
  reissueAsset : α
  issueSubAsset : α
  issueUniqueAsset : α
  issueMsgChannelAsset : α
  issueQualifierAsset : α
  issueSubQualifierAsset : α
  issueRestrictedAsset : α
  addNullQualifierTag : α

/-- The switch of `GetBurnAmount` and `GetBurnAddress`. -/
def BurnTable.get {α : Type} (table : BurnTable α) (default : α) : AssetType → α
  | .root => table.issueAsset
  | .sub => table.issueSubAsset
  | .msgChannel => table.issueMsgChannelAsset
  | .owner => default
  | .unique => table.issueUniqueAsset
  | .vote => default
  | .reissue => table.reissueAsset
  | .qualifier => table.issueQualifierAsset
  | .subQualifier => table.issueSubQualifierAsset
  | .restricted => table.issueRestrictedAsset
  | .nullAddQualifier => table.addNullQualifierTag
  | .invalid => default

inductive Network where
  | main
  | test
  | regtest
deriving DecidableEq

structure ChainParams where
  network : Network
  pubkeyAddress : Bytes
  scriptAddress : Bytes
  burnAmount : BurnTable Int
  burnAddress : BurnTable Bytes
  devAddress : Bytes
  nSubsidyHalvingInterval : Nat

/-- What validation reads and no transaction changes.  The hash functions are
those of the crypto library; the `are…` fields are the answers of the
deployment latches. -/
structure Env where
  params : ChainParams
  hash160 : Bytes → Bytes
  hash256 : Bytes → Bytes
  areAssetsDeployed : Bool
  isRip5Active : Bool
  areTransferScriptsSizeDeployed : Bool
  areEnforcedValuesDeployed : Bool
  areCoinbaseCheckAssetsDeployed : Bool
  fReindex : Bool
  fAssetIndex : Bool
  fMessaging : Bool

def Env.areMessagesDeployed (env : Env) : Bool := env.isRip5Active

def Env.areRestrictedAssetsDeployed (env : Env) : Bool := env.isRip5Active

def getBurnAmount (env : Env) (type : AssetType) : Int := env.params.burnAmount.get 0 type

def getBurnAddress (env : Env) (type : AssetType) : Bytes := env.params.burnAddress.get [] type

end Phicoin
