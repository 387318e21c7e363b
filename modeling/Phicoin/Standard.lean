import Phicoin.Env

/-! # Destinations and addresses

Base58 as the source computes it, digit by digit with a carry, the addresses
built on it, and `Solver`, which reads a destination out of an output script.
For an asset output the destination is bytes 3 to 22, whatever stands around
them. -/

namespace Phicoin

def base58Alphabet : Bytes :=
  ascii "123456789ABCDEFGHJKLMNPQRSTUVWXYZabcdefghijkmnopqrstuvwxyz"

/-- `isspace` of the C locale. -/
def isSpace (c : UInt8) : Bool := c = 32 || (9 ≤ c && c ≤ 13)

/-- The inner loop of both conversions, `digits = digits * factor + carry`, over
the digits from the least significant one; also the position it stopped at. -/
def addCarry (base factor length : Nat) : Nat → Nat → List Nat → List Nat × Nat
  | i, _, [] => ([], i)
  | i, carry, digit :: rest =>
    if carry ≠ 0 || i < length then
      let total := carry + factor * digit
      let tail := addCarry base factor length (i + 1) (total / base) rest
      (total % base :: tail.1, tail.2)
    else (digit :: rest, i)

/-- Convert digits, most significant first, to `size` digits of another base;
the result is most significant first without leading zeros. -/
def convertDigits (base factor size : Nat) (input : List Nat) : List Nat :=
  let final := input.foldl
    (fun (state : List Nat × Nat) digit => addCarry base factor state.2 0 digit state.1)
    (List.replicate size 0, 0)
  (final.1.take final.2).reverse.dropWhile (· = 0)

def encodeBase58 (data : Bytes) : Bytes :=
  let rest := data.dropWhile (· = 0)
  let size := rest.length * 138 / 100 + 1
  List.replicate (data.length - rest.length) 49 ++
    (convertDigits 58 256 size (rest.map UInt8.toNat)).map fun d => base58Alphabet.getD d 0

def decodeBase58 (text : Bytes) : Option Bytes :=
  let text := (text.takeWhile (· ≠ 0)).dropWhile isSpace
  let rest := text.dropWhile (· = 49)
  let size := rest.length * 733 / 1000 + 1
  let body := rest.takeWhile fun c => !isSpace c
  if (rest.drop body.length).all isSpace && body.all (base58Alphabet.contains ·) then
    some (List.replicate (text.length - rest.length) 0 ++
      (convertDigits 256 58 size (body.map base58Alphabet.idxOf)).map UInt8.ofNat)
  else none

def encodeBase58Check (env : Env) (data : Bytes) : Bytes :=
  encodeBase58 (data ++ (env.hash256 data).take 4)

def decodeBase58Check (env : Env) (text : Bytes) : Option Bytes :=
  match decodeBase58 text with
  | none => none
  | some data =>
    let payload := data.take (data.length - 4)
    if data.length < 4 || (env.hash256 payload).take 4 ≠ data.drop (data.length - 4) then none
    else some payload

inductive TxDestination where
  | noDestination
  | keyId (id : Bytes)
  | scriptId (id : Bytes)
deriving DecidableEq

def isValidDestination : TxDestination → Bool
  | .noDestination => false
  | _ => true

def encodeDestination (env : Env) : TxDestination → Bytes
  | .noDestination => []
  | .keyId id => encodeBase58Check env (env.params.pubkeyAddress ++ id)
  | .scriptId id => encodeBase58Check env (env.params.scriptAddress ++ id)

/-- `CPHICOINAddress(str).Get()`, with one version byte. -/
def decodeDestination (env : Env) (text : Bytes) : TxDestination :=
  match decodeBase58Check env text with
  | some (version :: id) =>
    if id.length ≠ 20 then .noDestination
    else if [version] = env.params.pubkeyAddress then .keyId id
    else if [version] = env.params.scriptAddress then .scriptId id
    else .noDestination
  | _ => .noDestination

/-- `CPubKey(vch).IsValid()`: the length its header byte announces. -/
def isValidPubKey (key : Bytes) : Bool :=
  match key with
  | [] => false
  | header :: _ =>
    if header = 2 || header = 3 then key.length = 33
    else if header = 4 || header = 6 || header = 7 then key.length = 65
    else false

def isSmallInteger (opcode : UInt8) : Bool := opcode = op0 || (op1 ≤ opcode && opcode ≤ op16)

def decodeOpN (opcode : UInt8) : Nat := if opcode = op0 then 0 else opcode.toNat - 0x50

def isPubKeySize (data : Bytes) : Bool := 33 ≤ data.length && data.length ≤ 65

/-- The scan of the pay-to-pubkey template over the instructions of a script. -/
def solvePubkey : List (UInt8 × Bytes) → Option (TxnOutType × List Bytes)
  | [(_, key), (check, operand)] =>
    if isPubKeySize key && check = opChecksig && operand = [] then some (.pubkey, [key]) else none
  | _ => none

def solvePubkeyHash : List (UInt8 × Bytes) → Option (TxnOutType × List Bytes)
  | [(dup, dupData), (hash, hashData), (_, id), (verify, verifyData), (check, checkData)] =>
    if dup = opDup && dupData = [] && hash = opHash160 && hashData = [] && id.length = 20 &&
        verify = opEqualverify && verifyData = [] && check = opChecksig && checkData = [] then
      some (.pubkeyHash, [id])
    else none
  | _ => none

/-- A small integer, keys, a small integer and `OP_CHECKMULTISIG`. -/
def solveMultisig : List (UInt8 × Bytes) → Option (TxnOutType × List Bytes)
  | [] => none
  | (first, _) :: rest =>
    let keys := (rest.takeWhile fun instruction => isPubKeySize instruction.2).map Prod.snd
    match rest.drop keys.length with
    | [(last, _), (final, operand)] =>
      let m := decodeOpN first
      let n := decodeOpN last
      if isSmallInteger first && isSmallInteger last && final = opCheckmultisig &&
          operand = [] && 1 ≤ m && m ≤ n && keys.length = n then
        some (.multisig, [UInt8.ofNat m] :: keys ++ [[UInt8.ofNat n]])
      else none
    | _ => none

def solveTemplates (ops : List (UInt8 × Bytes)) : Option (TxnOutType × List Bytes) :=
  solvePubkey ops <|> solvePubkeyHash ops <|> solveMultisig ops

/-- `Solver`: the type of an output script and the data in it. -/
def solver (script : Bytes) : Option (TxnOutType × List Bytes) :=
  if isPayToScriptHash script then some (.scriptHash, [(script.drop 2).take 20])
  else match isAssetScript script with
  | some info => some (info.nType, [(script.drop 3).take 20])
  | none =>
    match isWitnessProgram script with
    | some (version, program) =>
      if version = 0 && program.length = 20 then some (.witnessV0KeyHash, [program])
      else if version = 0 && program.length = 32 then some (.witnessV0ScriptHash, [program])
      else none
    | none =>
      if script.length ≥ 1 && byteAt script 0 = opReturn && isPushOnly (script.drop 1) then
        some (.nullData, [])
      else if script.length ≥ 1 && byteAt script 0 = opPhiAsset && isPushOnly (script.drop 1) then
        if script.length ≥ 23 && byteAt script 1 ≠ opReserved then
          some (.restrictedAssetData, [(script.drop 2).take 20])
        else some (.restrictedAssetData, [])
      else
        let ops := instructions script.length script
        if ops.2 then solveTemplates ops.1 else none

/-- `ExtractDestination`; `noDestination` also stands for its failure, which
leaves the destination as constructed. -/
def extractDestination (env : Env) (script : Bytes) : TxDestination :=
  match solver script with
  | some (.pubkey, key :: _) =>
    if isValidPubKey key then .keyId (env.hash160 key) else .noDestination
  | some (.pubkeyHash, id :: _) => .keyId id
  | some (.scriptHash, id :: _) => .scriptId id
  | some (.newAsset, id :: _) => .keyId id
  | some (.reissueAsset, id :: _) => .keyId id
  | some (.transferAsset, id :: _) => .keyId id
  | some (.restrictedAssetData, id :: _) => .keyId id
  | _ => .noDestination

end Phicoin
