import Phicoin.AmountText
import Phicoin.Standard

/-! # Transactions of the web wallet

The web wallet builds, signs and serializes transactions in the browser.  It has two
builders: one from inputs and outputs it planned, and one that signs a raw
transaction the daemon made.  Texts in hexadecimal are the bytes they stand for
here, and amounts are already in satoshi; hashes, keys and signatures are functions
the wallet is given. -/

namespace Phicoin.Web

open ByteReader Check

/-- The hash functions, the keys of the wallet and its signatures. -/
structure Crypto where
  sha256 : Bytes → Bytes
  ripemd160 : Bytes → Bytes
  derive : String → Option Bytes × Option Bytes
  sign : Bytes → Bytes → Bytes

namespace Crypto

variable (crypto : Crypto)

def hash160 (data : Bytes) : Bytes := crypto.ripemd160 (crypto.sha256 data)

def hash256 (data : Bytes) : Bytes := crypto.sha256 (crypto.sha256 data)

end Crypto

/-- `writeVarInt` of the builder; from `0x10000` on the buffer has four bytes too many. -/
def writeVarInt (value : Nat) : Bytes :=
  if value < 0xfd then leBytes 1 value
  else if value ≤ 0xffff then 0xfd :: leBytes 2 value
  else 0xfe :: leBytes 4 value ++ [0, 0, 0, 0]

/-- A transaction id as it stands in a transaction; absent bytes read as zero. -/
def reversed (txid : Bytes) : Bytes := (List.range 32).map fun j => txid.getD (31 - j) 0

def fixedHash (hash : Bytes) : Bytes := (hash ++ List.replicate 20 0).take 20

def p2pkhScript (hash : Bytes) : Bytes :=
  [opDup, opHash160, 0x14] ++ fixedHash hash ++ [opEqualverify, opChecksig]

def p2shScript (hash : Bytes) : Bytes := [opHash160, 0x14] ++ fixedHash hash ++ [opEqual]

def p2pkhScriptPubKey (crypto : Crypto) (pubKey : Bytes) : Bytes :=
  p2pkhScript (crypto.hash160 pubKey)

def base58Decode (text : Bytes) : Check Bytes := do
  let decimal ← text.foldlM (fun (decimal : Nat) c => do
    let i ← require? (base58Alphabet.findIdx? (· = c)) ("Invalid Base58 character: " ++ textOf [c])
    return decimal * 58 + i) 0
  let bytes := (Nat.digits 256 decimal).map UInt8.ofNat
  return (bytes ++ List.replicate (text.takeWhile (· = 49)).length 0).reverse

/-- `decodeBase58Check`, without the version byte, which no caller looks at. -/
def decodeBase58Check (crypto : Crypto) (address : Bytes) : Check Bytes := do
  let decoded ← base58Decode address
  require (5 ≤ decoded.length) "Invalid Base58Check address"
  let payload := decoded.take (decoded.length - 4)
  let checksum := decoded.drop (decoded.length - 4)
  require ((crypto.hash256 payload).take 4 = checksum) "Invalid Base58Check checksum"
  return payload.drop 1

/-- `buildScriptFromAddress`.  The case of an address that starts with `PHC1` is never
reached, since it starts with `P`. -/
def buildScriptFromAddress (crypto : Crypto) (address : Bytes) : Check Bytes :=
  if (ascii "P").isPrefixOf address then do
    let hash ← decodeBase58Check crypto address
    require (hash.length ≤ 22) "offset is out of bounds"
    return p2pkhScript hash
  else if (ascii "H").isPrefixOf address then do
    let hash ← decodeBase58Check crypto address
    require (hash.length ≤ 21) "offset is out of bounds"
    return p2shScript hash
  else return []

structure PSBTInput where
  txid : Bytes
  vout : Nat
  scriptPubKey : Bytes
  valueSat : Int
  derivationPath : String
  sequence : Option Nat

structure PSBTOutput where
  address : Bytes
  valueSat : Int

structure PSBTBuildOptions where
  inputs : List PSBTInput
  outputs : List PSBTOutput
  feeRate : Int := 1
  locktime : Nat := 0
  replaceable : Bool := false

structure TxOutput where
  value : Int
  scriptPubKey : Bytes
  deriving DecidableEq

def finalSequence : Nat := 0xffffffff

def PSBTInput.sequenceOrFinal (input : PSBTInput) : Nat := input.sequence.getD finalSequence

def TxOutput.bytes (out : TxOutput) : Bytes :=
  signedBytes 8 out.value ++ writeVarInt out.scriptPubKey.length ++ out.scriptPubKey

def outpointBytes (input : PSBTInput) : Bytes := reversed input.txid ++ leBytes 4 input.vout

def sighashAll : Nat := 0x01

variable (inputs : List PSBTInput) (outputs : List TxOutput)

/-- What `computeSighashP2PKH` hashes. -/
def sighashP2PKHPreimage (inputIndex : Nat)
    (scriptCode : Bytes) (sighashFlags : Nat) : Bytes :=
  signedBytes 4 2 ++ writeVarInt inputs.length ++
    (inputs.zipIdx.flatMap fun entry => outpointBytes entry.1 ++
      (if entry.2 = inputIndex then writeVarInt scriptCode.length ++ scriptCode
        else writeVarInt 0) ++ leBytes 4 entry.1.sequenceOrFinal) ++
    writeVarInt outputs.length ++ outputs.flatMap TxOutput.bytes ++ leBytes 4 0 ++
    leBytes 4 sighashFlags

def computeSighashP2PKH (crypto : Crypto) (inputs : List PSBTInput) (outputs : List TxOutput)
    (inputIndex : Nat) (scriptCode : Bytes) (sighashFlags : Nat) : Bytes :=
  crypto.hash256 (sighashP2PKHPreimage inputs outputs inputIndex scriptCode sighashFlags)

def buildPrevOutputs : Bytes := inputs.flatMap outpointBytes

/-- `buildSequences`: the sequences of the other inputs are zero. -/
def buildSequences (currentInput : Nat) : Bytes :=
  inputs.zipIdx.flatMap fun entry =>
    leBytes 4 (if entry.2 = currentInput then entry.1.sequenceOrFinal else 0)

/-- `buildOutputsSegWit` for flags without `SIGHASH_ANYONECANPAY`. -/
def buildOutputsSegWit : Bytes := outputs.flatMap TxOutput.bytes

/-- What `computeSighashBIP143` hashes for `SIGHASH_ALL`, the only flags it is called with. -/
def sighashBIP143Preimage (crypto : Crypto) (inputs : List PSBTInput) (outputs : List TxOutput)
    (inputIndex : Nat) (input : PSBTInput) (scriptCode : Bytes) (amountSat : Int) : Bytes :=
  signedBytes 4 2 ++ crypto.hash256 (buildPrevOutputs inputs) ++
    crypto.hash256 (buildSequences inputs inputIndex) ++ outpointBytes input ++
    writeVarInt scriptCode.length ++ scriptCode ++ signedBytes 8 amountSat ++
    leBytes 4 input.sequenceOrFinal ++ crypto.hash256 (buildOutputsSegWit outputs) ++ leBytes 4 0 ++
    leBytes 4 sighashAll

def isSegwit (scriptPubKey : Bytes) : Bool :=
  [0x00, 0x14].isPrefixOf scriptPubKey || [0x00, 0x20].isPrefixOf scriptPubKey ||
    ([0xa9, 0x14].isPrefixOf scriptPubKey && [0x87].isSuffixOf scriptPubKey)

def compressPublicKey (pubKey : Bytes) : Check Bytes :=
  if pubKey.length = 33 then return pubKey
  else do
    require (pubKey.length = 65) "Invalid public key length"
    return (if pubKey.getD 64 0 % 2 = 0 then 0x02 else 0x03) :: (pubKey.drop 1).take 32

/-- `PUSH(sig + sighash) PUSH(pubkey)` -/
def p2pkhScriptSig (signature pubKey : Bytes) : Bytes :=
  let sigWithHash := signature ++ [UInt8.ofNat sighashAll]
  writeVarInt sigWithHash.length ++ sigWithHash ++ writeVarInt pubKey.length ++ pubKey

/-- The script code of a SegWit input: `OP_0` and the hash in a field of 22 bytes. -/
def segwitScriptCode (crypto : Crypto) (pubKey : Bytes) : Bytes :=
  0x00 :: (crypto.hash160 pubKey ++ List.replicate 21 0).take 21

def inputDigest (crypto : Crypto) (inputs : List PSBTInput) (outputs : List TxOutput)
    (inputIndex : Nat) (input : PSBTInput) (pubKey : Bytes) : Bytes :=
  if isSegwit input.scriptPubKey then
    crypto.hash256 (sighashBIP143Preimage crypto inputs outputs inputIndex input
      (segwitScriptCode crypto pubKey) input.valueSat)
  else computeSighashP2PKH crypto inputs outputs inputIndex (p2pkhScriptPubKey crypto pubKey)
    sighashAll

def signInput (crypto : Crypto) (inputs : List PSBTInput) (outputs : List TxOutput)
    (entry : PSBTInput × Nat) : Check (Bytes × List Bytes) := do
  let (input, inputIndex) := entry
  let (privateKey, publicKey) := crypto.derive input.derivationPath
  let privateKey ← require? privateKey ("No private key at " ++ input.derivationPath)
  let publicKey ← require? publicKey ("No public key at " ++ input.derivationPath)
  let compressedKey ← compressPublicKey publicKey
  let digest := inputDigest crypto inputs outputs inputIndex input compressedKey
  let signature := crypto.sign digest (privateKey.take 32)
  return if isSegwit input.scriptPubKey then
      ([], [signature ++ [UInt8.ofNat sighashAll], compressedKey])
    else (p2pkhScriptSig signature compressedKey, [])

variable (options : PSBTBuildOptions)

def effectiveInputs : List PSBTInput :=
  options.inputs.map fun input => { input with
    sequence := some (if options.replaceable then 0xfffffffd else input.sequenceOrFinal) }

def estimatedFee : Int :=
  (options.inputs.length * 180 + options.outputs.length * 34) * options.feeRate

def change : Int :=
  (options.inputs.map PSBTInput.valueSat).sum - (options.outputs.map PSBTOutput.valueSat).sum -
    estimatedFee options

def insufficientFunds : String :=
  "Insufficient funds. Missing: " ++ String.ofList (valueFromAmountString (-change options) 8) ++
    " PHI"

def buildOutput (crypto : Crypto) (out : PSBTOutput) : Check TxOutput := do
  return ⟨out.valueSat, ← buildScriptFromAddress crypto out.address⟩

def serializeTx (scriptSigs : List Bytes)
    (witnessStacks : List (List Bytes)) (locktime : Nat) (hasSegwit : Bool) : Bytes :=
  signedBytes 4 2 ++ writeVarInt inputs.length ++
    ((inputs.zip scriptSigs).flatMap fun entry => outpointBytes entry.1 ++
      writeVarInt entry.2.length ++ entry.2 ++ leBytes 4 entry.1.sequenceOrFinal) ++
    (if hasSegwit then [0x00, 0x01] else []) ++
    writeVarInt outputs.length ++ outputs.flatMap TxOutput.bytes ++
    (if hasSegwit then witnessStacks.flatMap fun stack => writeVarInt stack.length ++
      stack.flatMap fun item => writeVarInt item.length ++ item else []) ++
    leBytes 4 locktime

/-- `buildP2PKHTx`; the digests are of the inputs as given, the transaction has the
effective ones. -/
def buildP2PKHTx (crypto : Crypto) (options : PSBTBuildOptions) : Check Bytes := do
  require (0 ≤ change options) (insufficientFunds options)
  let outputScripts ← options.outputs.mapM (buildOutput crypto)
  let signed ← options.inputs.zipIdx.mapM (signInput crypto options.inputs outputScripts)
  return serializeTx (effectiveInputs options) outputScripts (signed.map Prod.fst)
    (signed.map Prod.snd) options.locktime
    (options.inputs.any fun input => isSegwit input.scriptPubKey)

/-- `buildAndSignOnly`: the transaction with the hash of all its bytes as its id. -/
def buildAndSignOnly (crypto : Crypto) (options : PSBTBuildOptions) : Check (Bytes × Bytes) := do
  let rawTx ← buildP2PKHTx crypto options
  return ((crypto.hash256 rawTx).reverse, rawTx)

end Phicoin.Web
