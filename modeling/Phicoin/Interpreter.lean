import Phicoin.Lib.Validation
import Phicoin.Script

/-! # The script interpreter

A stack machine over byte strings.  The stack is a list with its top at the
head; an exception of the source is the error `unknownError`, as its handler
makes it.  Hash functions and the signature checker are parameters: the checker
is an interface in the source too. -/

namespace Phicoin.Interpreter

open Check

inductive ScriptError where
  | unknownError
  | evalFalse
  | opReturn
  | scriptSize
  | pushSize
  | opCount
  | stackSize
  | sigCount
  | pubkeyCount
  | verify
  | equalverify
  | checkmultisigverify
  | checksigverify
  | numequalverify
  | badOpcode
  | disabledOpcode
  | invalidStackOperation
  | invalidAltstackOperation
  | unbalancedConditional
  | negativeLocktime
  | unsatisfiedLocktime
  | sigHashtype
  | sigDer
  | minimaldata
  | sigPushonly
  | sigHighS
  | sigNulldummy
  | pubkeytype
  | cleanstack
  | minimalif
  | sigNullfail
  | discourageUpgradableNops
  | discourageUpgradableWitnessProgram
  | witnessProgramWrongLength
  | witnessProgramWitnessEmpty
  | witnessProgramMismatch
  | witnessMalleated
  | witnessMalleatedP2sh
  | witnessUnexpected
  | witnessPubkeytype
deriving DecidableEq

inductive SigVersion where
  | base
  | witnessV0
deriving DecidableEq

/-- The `SCRIPT_VERIFY_…` flags.  `VerifyScript` asserts the two implications. -/
structure ScriptFlags where
  p2sh : Bool
  strictenc : Bool
  dersig : Bool
  lowS : Bool
  nulldummy : Bool
  sigpushonly : Bool
  minimaldata : Bool
  discourageUpgradableNops : Bool
  cleanstack : Bool
  checklocktimeverify : Bool
  checksequenceverify : Bool
  witness : Bool
  discourageUpgradableWitnessProgram : Bool
  minimalif : Bool
  nullfail : Bool
  witnessPubkeytype : Bool
  witness_p2sh : witness = true → p2sh = true
  cleanstack_witness : cleanstack = true → witness = true

/-- The flags `GetBlockScriptFlags` sets on the main network. -/
def blockScriptFlags : ScriptFlags where
  p2sh := true
  strictenc := false
  dersig := true
  lowS := false
  nulldummy := true
  sigpushonly := false
  minimaldata := false
  discourageUpgradableNops := false
  cleanstack := false
  checklocktimeverify := true
  checksequenceverify := true
  witness := true
  discourageUpgradableWitnessProgram := false
  minimalif := false
  nullfail := false
  witnessPubkeytype := false
  witness_p2sh := fun _ => rfl
  cleanstack_witness := nofun

/-- `BaseSignatureChecker` -/
structure SignatureChecker where
  checkSig : Bytes → Bytes → Bytes → SigVersion → Bool
  checkLockTime : Int → Bool
  checkSequence : Int → Bool

/-- The functions of the crypto library. -/
structure Crypto where
  ripemd160 : Bytes → Bytes
  sha1 : Bytes → Bytes
  sha256 : Bytes → Bytes
  hash160 : Bytes → Bytes
  hash256 : Bytes → Bytes
  checkLowS : Bytes → Bool

/-- What `EvalScript` is given besides the stack and the script. -/
structure Context where
  crypto : Crypto
  checker : SignatureChecker
  flags : ScriptFlags
  sigversion : SigVersion

def maxScriptElementSize : Nat := 520
def maxOpsPerScript : Nat := 201
def maxPubkeysPerMultisig : Int := 20
def maxStackSize : Nat := 1000

def vchFalse : Bytes := []
def vchTrue : Bytes := [1]

def vchBool (value : Bool) : Bytes := if value then vchTrue else vchFalse

/-- `CastToBool`: zero and negative zero are false. -/
def castToBool : Bytes → Bool
  | [] => false
  | [b] => b ≠ 0 && b ≠ 0x80
  | b :: rest => b ≠ 0 || castToBool rest

/-- The bytes of a magnitude, least significant first; eight bytes bound a word. -/
def magnitude : Nat → Nat → Bytes
  | 0, _ => []
  | fuel + 1, value =>
    if value = 0 then [] else UInt8.ofNat (value % 256) :: magnitude fuel (value / 256)

/-- `CScriptNum::serialize` -/
def serializeNum (value : Int) : Bytes :=
  let result := magnitude 8 value.natAbs
  match result.getLast? with
  | none => []
  | some last =>
    if last ≥ 0x80 then result ++ [if value < 0 then 0x80 else 0]
    else if value < 0 then result.dropLast ++ [last + 0x80]
    else result

def setVch (vch : Bytes) : Int :=
  match vch.getLast? with
  | none => 0
  | some last =>
    if last ≥ 0x80 then -(ByteReader.leValue (vch.dropLast ++ [last - 0x80]) : Int)
    else ByteReader.leValue vch

/-- The constructor of `CScriptNum` from a stack element. -/
def scriptNum (vch : Bytes) (fRequireMinimal : Bool) (nMaxNumSize : Nat) :
    Except ScriptError Int := do
  require (vch.length ≤ nMaxNumSize) .unknownError
  -- the top byte may be a bare sign only when the byte below needs its high bit
  let padded := match vch.reverse with
    | [] => false
    | last :: below => (last = 0 || last = 0x80) && below.headD 0 < 0x80
  require (!(fRequireMinimal && padded)) .unknownError
  return setVch vch

/-- `IsValidSignatureEncoding`: strict DER with a hash type byte. -/
def isValidSignatureEncoding (sig : Bytes) : Bool :=
  let lenR := (byteAt sig 3).toNat
  let lenS := (byteAt sig (5 + lenR)).toNat
  9 ≤ sig.length && sig.length ≤ 73 && byteAt sig 0 = 0x30 &&
    (byteAt sig 1).toNat = sig.length - 3 && 5 + lenR < sig.length &&
    lenR + lenS + 7 = sig.length && byteAt sig 2 = 0x02 && lenR ≠ 0 && byteAt sig 4 < 0x80 &&
    !(lenR > 1 && byteAt sig 4 = 0 && byteAt sig 5 < 0x80) && byteAt sig (lenR + 4) = 0x02 &&
    lenS ≠ 0 && byteAt sig (lenR + 6) < 0x80 &&
    !(lenS > 1 && byteAt sig (lenR + 6) = 0 && byteAt sig (lenR + 7) < 0x80)

def isDefinedHashtypeSignature (sig : Bytes) : Bool :=
  match sig.getLast? with
  | none => false
  | some last =>
    let nHashType := if last ≥ 0x80 then last - 0x80 else last
    1 ≤ nHashType && nHashType ≤ 3

def isCompressedPubKey (key : Bytes) : Bool :=
  key.length = 33 && (byteAt key 0 = 2 || byteAt key 0 = 3)

def isCompressedOrUncompressedPubKey (key : Bytes) : Bool :=
  if byteAt key 0 = 4 then key.length = 65 else isCompressedPubKey key

def checkSignatureEncoding (ctx : Context) (sig : Bytes) : Except ScriptError Unit :=
  if sig = [] then .ok ()
  else do
    require (!(ctx.flags.dersig || ctx.flags.lowS || ctx.flags.strictenc) ||
      isValidSignatureEncoding sig) .sigDer
    require (!ctx.flags.lowS || ctx.crypto.checkLowS sig.dropLast) .sigHighS
    require (!ctx.flags.strictenc || isDefinedHashtypeSignature sig) .sigHashtype

def checkPubKeyEncoding (ctx : Context) (key : Bytes) : Except ScriptError Unit := do
  require (!ctx.flags.strictenc || isCompressedOrUncompressedPubKey key) .pubkeytype
  require (!(ctx.flags.witnessPubkeytype && ctx.sigversion = .witnessV0) || isCompressedPubKey key)
    .witnessPubkeytype

def checkMinimalPush (data : Bytes) (opcode : UInt8) : Bool :=
  match data with
  | [] => opcode = op0
  | [b] =>
    if 1 ≤ b && b ≤ 16 then opcode = op1 + (b - 1)
    else if b = 0x81 then opcode = 0x4f
    else opcode = 1
  | _ =>
    if data.length ≤ 75 then opcode.toNat = data.length
    else if data.length ≤ 255 then opcode = opPushdata1
    else if data.length ≤ 65535 then opcode = opPushdata2
    else true

/-- The script without the occurrences of `b` at its start. -/
def dropOccurrences (b : Bytes) : Nat → Bytes → Bytes
  | 0, script => script
  | fuel + 1, script =>
    if b.isPrefixOf script then dropOccurrences b fuel (script.drop b.length) else script

/-- The loop of `FindAndDelete`: occurrences of `b` between instructions go. -/
def deleteOccurrences (b : Bytes) : Nat → Bytes → Bytes
  | 0, script => script
  | fuel + 1, script =>
    let kept := dropOccurrences b script.length script
    match getOp kept with
    | none => kept
    | some (_, _, rest) => kept.take (kept.length - rest.length) ++ deleteOccurrences b fuel rest

def findAndDelete (script b : Bytes) : Bytes :=
  if b = [] then script else deleteOccurrences b (script.length + 1) script

/-- The opcodes that only rearrange the stack. -/
inductive StackOp where
  | twoDrop
  | twoDup
  | threeDup
  | twoOver
  | twoRot
  | twoSwap
  | ifDup
  | depth
  | drop
  | dup
  | nip
  | over
  | rot
  | swap
  | tuck
  | size

inductive UnaryOp where
  | add1
  | sub1
  | negate
  | abs
  | not
  | notEqual0

inductive BinaryOp where
  | add
  | sub
  | boolAnd
  | boolOr
  | numEqual
  | numNotEqual
  | lessThan
  | greaterThan
  | lessThanOrEqual
  | greaterThanOrEqual
  | min
  | max

inductive HashOp where
  | ripemd160
  | sha1
  | sha256
  | hash160
  | hash256

/-- The cases of the switch in `EvalScript`.  An opcode and its `VERIFY` form are
one case with a flag. -/
inductive Opcode where
  | number (value : Int)
  | nop
  | upgradableNop
  | checkLockTimeVerify
  | checkSequenceVerify
  | branch (negated : Bool)
  | otherwise
  | endIf
  | verify
  | ret
  | toAltStack
  | fromAltStack
  | stack (op : StackOp)
  | pick (remove : Bool)
  | equal (verify : Bool)
  | unary (op : UnaryOp)
  | binary (op : BinaryOp) (verify : Bool)
  | within
  | hash (op : HashOp)
  | codeSeparator
  | checkSig (verify : Bool)
  | checkMultiSig (verify : Bool)
  | phiAsset
  | disabled
  | bad

/-- `opcodetype` above the pushes; a byte that is not listed is a bad opcode. -/
def opcodes : List (UInt8 × Opcode) :=
  [(0x4f, .number (-1)), (0x51, .number 1), (0x52, .number 2), (0x53, .number 3),
   (0x54, .number 4), (0x55, .number 5), (0x56, .number 6), (0x57, .number 7), (0x58, .number 8),
   (0x59, .number 9), (0x5a, .number 10), (0x5b, .number 11), (0x5c, .number 12),
   (0x5d, .number 13), (0x5e, .number 14), (0x5f, .number 15), (0x60, .number 16),
   (0x61, .nop), (0x63, .branch false), (0x64, .branch true), (0x67, .otherwise),
   (0x68, .endIf), (0x69, .verify), (0x6a, .ret), (0x6b, .toAltStack), (0x6c, .fromAltStack),
   (0x6d, .stack .twoDrop), (0x6e, .stack .twoDup), (0x6f, .stack .threeDup),
   (0x70, .stack .twoOver), (0x71, .stack .twoRot), (0x72, .stack .twoSwap),
   (0x73, .stack .ifDup), (0x74, .stack .depth), (0x75, .stack .drop), (0x76, .stack .dup),
   (0x77, .stack .nip), (0x78, .stack .over), (0x79, .pick false), (0x7a, .pick true),
   (0x7b, .stack .rot), (0x7c, .stack .swap), (0x7d, .stack .tuck), (0x7e, .disabled),
   (0x7f, .disabled), (0x80, .disabled), (0x81, .disabled), (0x82, .stack .size),
   (0x83, .disabled), (0x84, .disabled), (0x85, .disabled), (0x86, .disabled),
   (0x87, .equal false), (0x88, .equal true), (0x8b, .unary .add1), (0x8c, .unary .sub1),
   (0x8d, .disabled), (0x8e, .disabled), (0x8f, .unary .negate), (0x90, .unary .abs),
   (0x91, .unary .not), (0x92, .unary .notEqual0), (0x93, .binary .add false),
   (0x94, .binary .sub false), (0x95, .disabled), (0x96, .disabled), (0x97, .disabled),
   (0x98, .disabled), (0x99, .disabled), (0x9a, .binary .boolAnd false),
   (0x9b, .binary .boolOr false), (0x9c, .binary .numEqual false), (0x9d, .binary .numEqual true),
   (0x9e, .binary .numNotEqual false), (0x9f, .binary .lessThan false),
   (0xa0, .binary .greaterThan false), (0xa1, .binary .lessThanOrEqual false),
   (0xa2, .binary .greaterThanOrEqual false), (0xa3, .binary .min false),
   (0xa4, .binary .max false), (0xa5, .within), (0xa6, .hash .ripemd160), (0xa7, .hash .sha1),
   (0xa8, .hash .sha256), (0xa9, .hash .hash160), (0xaa, .hash .hash256), (0xab, .codeSeparator),
   (0xac, .checkSig false), (0xad, .checkSig true), (0xae, .checkMultiSig false),
   (0xaf, .checkMultiSig true), (0xb0, .upgradableNop), (0xb1, .checkLockTimeVerify),
   (0xb2, .checkSequenceVerify), (0xb3, .upgradableNop), (0xb4, .upgradableNop),
   (0xb5, .upgradableNop), (0xb6, .upgradableNop), (0xb7, .upgradableNop),
   (0xb8, .upgradableNop), (0xb9, .upgradableNop), (0xc0, .phiAsset)]

def decode (opcode : UInt8) : Opcode := (opcodes.lookup opcode).getD .bad

/-- `OP_IF` to `OP_ENDIF`, which are executed in a branch not taken too. -/
def isConditional (opcode : UInt8) : Bool := 0x63 ≤ opcode && opcode ≤ 0x68

structure Machine where
  stack : List Bytes
  altstack : List Bytes
  /-- The innermost condition first. -/
  vfExec : List Bool
  nOpCount : Nat
  /-- The script from the last code separator on. -/
  codeHash : Bytes

def stackOp : StackOp → List Bytes → Option (List Bytes)
  | .twoDrop, _ :: _ :: rest => some rest
  | .twoDup, x2 :: x1 :: rest => some (x2 :: x1 :: x2 :: x1 :: rest)
  | .threeDup, x3 :: x2 :: x1 :: rest => some (x3 :: x2 :: x1 :: x3 :: x2 :: x1 :: rest)
  | .twoOver, x4 :: x3 :: x2 :: x1 :: rest => some (x2 :: x1 :: x4 :: x3 :: x2 :: x1 :: rest)
  | .twoRot, x6 :: x5 :: x4 :: x3 :: x2 :: x1 :: rest =>
    some (x2 :: x1 :: x6 :: x5 :: x4 :: x3 :: rest)
  | .twoSwap, x4 :: x3 :: x2 :: x1 :: rest => some (x2 :: x1 :: x4 :: x3 :: rest)
  | .ifDup, x :: rest => some (if castToBool x then x :: x :: rest else x :: rest)
  | .depth, stack => some (serializeNum stack.length :: stack)
  | .drop, _ :: rest => some rest
  | .dup, x :: rest => some (x :: x :: rest)
  | .nip, x2 :: _ :: rest => some (x2 :: rest)
  | .over, x2 :: x1 :: rest => some (x1 :: x2 :: x1 :: rest)
  | .rot, x3 :: x2 :: x1 :: rest => some (x1 :: x3 :: x2 :: rest)
  | .swap, x2 :: x1 :: rest => some (x1 :: x2 :: rest)
  | .tuck, x2 :: x1 :: rest => some (x2 :: x1 :: x2 :: rest)
  | .size, x :: rest => some (serializeNum x.length :: x :: rest)
  | _, _ => none

def unaryOp : UnaryOp → Int → Int
  | .add1, n => n + 1
  | .sub1, n => n - 1
  | .negate, n => -n
  | .abs, n => if n < 0 then -n else n
  | .not, n => if n = 0 then 1 else 0
  | .notEqual0, n => if n ≠ 0 then 1 else 0

def binaryOp (op : BinaryOp) (m n : Int) : Int :=
  let truth (condition : Bool) : Int := if condition then 1 else 0
  match op with
  | .add => m + n
  | .sub => m - n
  | .boolAnd => truth (m ≠ 0 && n ≠ 0)
  | .boolOr => truth (m ≠ 0 || n ≠ 0)
  | .numEqual => truth (m = n)
  | .numNotEqual => truth (m ≠ n)
  | .lessThan => truth (m < n)
  | .greaterThan => truth (m > n)
  | .lessThanOrEqual => truth (m ≤ n)
  | .greaterThanOrEqual => truth (m ≥ n)
  | .min => if m < n then m else n
  | .max => if m > n then m else n

def hashOp (crypto : Crypto) : HashOp → Bytes → Bytes
  | .ripemd160 => crypto.ripemd160
  | .sha1 => crypto.sha1
  | .sha256 => crypto.sha256
  | .hash160 => crypto.hash160
  | .hash256 => crypto.hash256

section

variable (ctx : Context)

/-- `OP_CHECKLOCKTIMEVERIFY` and `OP_CHECKSEQUENCEVERIFY`, which are no-ops when
their flag is not set. -/
def lockVerify (enabled : Bool) (check : Int → Bool) (stack : List Bytes) :
    Except ScriptError Unit :=
  if !enabled then require (!ctx.flags.discourageUpgradableNops) .discourageUpgradableNops
  else match stack with
    | [] => .error .invalidStackOperation
    | top :: _ => do
        let n ← scriptNum top ctx.flags.minimaldata 5
        require (0 ≤ n) .negativeLocktime
        require (check n) .unsatisfiedLocktime

def sequenceAllowed (nSequence : Int) : Bool :=
  nSequence / 2 ^ 31 % 2 ≠ 0 || ctx.checker.checkSequence nSequence

/-- A truth value pushed, or demanded by the `VERIFY` form. -/
def pushVerdict (demanded value : Bool) (stack : List Bytes) (refused : ScriptError) :
    Except ScriptError (List Bytes) :=
  if !demanded then .ok (vchBool value :: stack)
  else if value then .ok stack
  else .error refused

def scriptCode (machine : Machine) (sigs : List Bytes) : Bytes :=
  if ctx.sigversion = .base then
    sigs.foldl (fun code sig => findAndDelete code (pushData sig)) machine.codeHash
  else machine.codeHash

def checkSigOp (demanded : Bool) (machine : Machine) : Except ScriptError (List Bytes) :=
  match machine.stack with
  | key :: sig :: rest => do
      checkSignatureEncoding ctx sig
      checkPubKeyEncoding ctx key
      let fSuccess := ctx.checker.checkSig sig key (scriptCode ctx machine [sig]) ctx.sigversion
      require (fSuccess || !ctx.flags.nullfail || sig = []) .sigNullfail
      pushVerdict demanded fSuccess rest .checksigverify
  | _ => .error .invalidStackOperation

/-- The loop of `OP_CHECKMULTISIG` over keys and signatures, both in stack order. -/
def matchSigs (code : Bytes) : List Bytes → List Bytes → Except ScriptError Bool
  | _, [] => .ok true
  | [], _ :: _ => .ok false
  | key :: keys, sig :: sigs => do
      checkSignatureEncoding ctx sig
      checkPubKeyEncoding ctx key
      let left := if ctx.checker.checkSig sig key code ctx.sigversion then sigs else sig :: sigs
      if left.length > keys.length then return false else matchSigs code keys left

/-- The keys of a multi-signature with the rest of the stack; they count as
operations. -/
def multiSigKeys (machine : Machine) : Except ScriptError (List Bytes × List Bytes) :=
  match machine.stack with
  | [] => .error .invalidStackOperation
  | top :: rest => do
      let n ← scriptNum top ctx.flags.minimaldata 4
      require (0 ≤ n && n ≤ maxPubkeysPerMultisig) .pubkeyCount
      require (machine.nOpCount + n.toNat ≤ maxOpsPerScript) .opCount
      -- the number of signatures has to be there too
      require (n.toNat + 1 ≤ rest.length) .invalidStackOperation
      return (rest.take n.toNat, rest.drop n.toNat)

def multiSigSigs (nKeysCount : Nat) : List Bytes → Except ScriptError (List Bytes × List Bytes)
  | [] => .error .invalidStackOperation
  | top :: rest => do
      let n ← scriptNum top ctx.flags.minimaldata 4
      require (0 ≤ n && n ≤ nKeysCount) .sigCount
      -- so has the extra element below the signatures
      require (n.toNat + 1 ≤ rest.length) .invalidStackOperation
      return (rest.take n.toNat, rest.drop n.toNat)

def checkMultiSigOp (demanded : Bool) (machine : Machine) : Except ScriptError Machine := do
  let (keys, rest) ← multiSigKeys ctx machine
  let (sigs, rest) ← multiSigSigs ctx keys.length rest
  let fSuccess ← matchSigs ctx (scriptCode ctx machine sigs) keys sigs
  require (fSuccess || !ctx.flags.nullfail || sigs.all (· = [])) .sigNullfail
  match rest with
  | [] => .error .invalidStackOperation
  | dummy :: rest => do
      require (!ctx.flags.nulldummy || dummy = []) .sigNulldummy
      let stack ← pushVerdict demanded fSuccess rest .checkmultisigverify
      return { machine with stack := stack, nOpCount := machine.nOpCount + keys.length }

/-- `OP_PICK` and `OP_ROLL` -/
def pickOp (remove : Bool) : List Bytes → Except ScriptError (List Bytes)
  | top :: below :: rest => do
      let n ← scriptNum top ctx.flags.minimaldata 4
      require (0 ≤ n) .invalidStackOperation
      let chosen ← require? ((below :: rest)[n.toNat]?) .invalidStackOperation
      return chosen :: if remove then (below :: rest).eraseIdx n.toNat else below :: rest
  | _ => .error .invalidStackOperation

def binaryNum (op : BinaryOp) (demanded : Bool) : List Bytes → Except ScriptError (List Bytes)
  | x2 :: x1 :: rest => do
      let m ← scriptNum x1 ctx.flags.minimaldata 4
      let n ← scriptNum x2 ctx.flags.minimaldata 4
      let result := serializeNum (binaryOp op m n)
      if !demanded then return result :: rest
      else if castToBool result then return rest
      else .error .numequalverify
  | _ => .error .invalidStackOperation

def withinOp : List Bytes → Except ScriptError (List Bytes)
  | x3 :: x2 :: x1 :: rest => do
      let n ← scriptNum x1 ctx.flags.minimaldata 4
      let low ← scriptNum x2 ctx.flags.minimaldata 4
      let high ← scriptNum x3 ctx.flags.minimaldata 4
      return vchBool (low ≤ n && n < high) :: rest
  | _ => .error .invalidStackOperation

/-- `OP_IF` and `OP_NOTIF`; in a branch not taken the condition is false. -/
def branchOp (negated fExec : Bool) (machine : Machine) : Except ScriptError Machine :=
  if !fExec then .ok { machine with vfExec := false :: machine.vfExec }
  else match machine.stack with
    | [] => .error .unbalancedConditional
    | top :: rest => do
        require (!(ctx.sigversion = .witnessV0 && ctx.flags.minimalif) || top = [] || top = [1])
          .minimalif
        return { machine with
          stack := rest
          vfExec := (castToBool top != negated) :: machine.vfExec }

/-- The switch over the opcode; `rest` is the script after the instruction. -/
def execute (opcode : Opcode) (fExec : Bool) (rest : Bytes) (machine : Machine) :
    Except ScriptError Machine :=
  let onStack (stack : Except ScriptError (List Bytes)) : Except ScriptError Machine := do
    return { machine with stack := ← stack }
  match opcode, machine.stack, machine.altstack, machine.vfExec with
  | .number value, stack, _, _ => .ok { machine with stack := serializeNum value :: stack }
  | .nop, _, _, _ => .ok machine
  | .upgradableNop, _, _, _ => do
      require (!ctx.flags.discourageUpgradableNops) .discourageUpgradableNops
      return machine
  | .checkLockTimeVerify, stack, _, _ => do
      lockVerify ctx ctx.flags.checklocktimeverify ctx.checker.checkLockTime stack
      return machine
  | .checkSequenceVerify, stack, _, _ => do
      lockVerify ctx ctx.flags.checksequenceverify (sequenceAllowed ctx) stack
      return machine
  | .branch negated, _, _, _ => branchOp ctx negated fExec machine
  | .otherwise, _, _, condition :: outer => .ok { machine with vfExec := (!condition) :: outer }
  | .otherwise, _, _, [] => .error .unbalancedConditional
  | .endIf, _, _, _ :: outer => .ok { machine with vfExec := outer }
  | .endIf, _, _, [] => .error .unbalancedConditional
  | .verify, top :: below, _, _ =>
    if castToBool top then .ok { machine with stack := below } else .error .verify
  | .ret, _, _, _ => .error .opReturn
  | .toAltStack, top :: below, alt, _ =>
    .ok { machine with stack := below, altstack := top :: alt }
  | .fromAltStack, stack, top :: alt, _ =>
    .ok { machine with stack := top :: stack, altstack := alt }
  | .fromAltStack, _, [], _ => .error .invalidAltstackOperation
  | .stack op, stack, _, _ => onStack (require? (stackOp op stack) .invalidStackOperation)
  | .pick remove, stack, _, _ => onStack (pickOp ctx remove stack)
  | .equal demanded, x2 :: x1 :: below, _, _ =>
    onStack (pushVerdict demanded (x1 = x2) below .equalverify)
  | .unary op, top :: below, _, _ => do
      let n ← scriptNum top ctx.flags.minimaldata 4
      return { machine with stack := serializeNum (unaryOp op n) :: below }
  | .binary op demanded, stack, _, _ => onStack (binaryNum ctx op demanded stack)
  | .within, stack, _, _ => onStack (withinOp ctx stack)
  | .hash op, top :: below, _, _ =>
    .ok { machine with stack := hashOp ctx.crypto op top :: below }
  | .codeSeparator, _, _, _ => .ok { machine with codeHash := rest }
  | .checkSig demanded, _, _, _ => onStack (checkSigOp ctx demanded machine)
  | .checkMultiSig demanded, _, _, _ => checkMultiSigOp ctx demanded machine
  | .phiAsset, _, _, _ => .ok machine
  | .disabled, _, _, _ => .error .disabledOpcode
  | .bad, _, _, _ => .error .badOpcode
  | _, _, _, _ => .error .invalidStackOperation

def perform (opcode : UInt8) (operand rest : Bytes) (machine : Machine) :
    Except ScriptError Machine :=
  let fExec := machine.vfExec.all id
  if fExec && opcode ≤ opPushdata4 then do
    require (!ctx.flags.minimaldata || checkMinimalPush operand opcode) .minimaldata
    return { machine with stack := operand :: machine.stack }
  else if fExec || isConditional opcode then execute ctx (decode opcode) fExec rest machine
  else .ok machine

def isDisabled (opcode : UInt8) : Bool :=
  match decode opcode with
  | .disabled => true
  | _ => false

/-- One round of the loop of `EvalScript`. -/
def step (opcode : UInt8) (operand rest : Bytes) (machine : Machine) :
    Except ScriptError Machine := do
  require (operand.length ≤ maxScriptElementSize) .pushSize
  let nOpCount := if opcode > op16 then machine.nOpCount + 1 else machine.nOpCount
  require (opcode ≤ op16 || nOpCount ≤ maxOpsPerScript) .opCount
  require (!isDisabled opcode) .disabledOpcode
  let next ← perform ctx opcode operand rest { machine with nOpCount := nOpCount }
  require (next.stack.length + next.altstack.length ≤ maxStackSize) .stackSize
  return next

/-- The loop of `EvalScript`; every instruction takes a byte, so the length of the
script is enough fuel. -/
def evalLoop : Nat → Bytes → Machine → Except ScriptError Machine
  | _, [], machine => .ok machine
  | 0, _ :: _, _ => .error .unknownError
  | fuel + 1, script@(_ :: _), machine => do
      let (opcode, operand, rest) ← require? (getOp script) .badOpcode
      let next ← step ctx opcode operand rest machine
      evalLoop fuel rest next

/-- `EvalScript`: the stack it leaves. -/
def evalScript (stack : List Bytes) (script : Bytes) : Except ScriptError (List Bytes) := do
  require (script.length ≤ maxScriptSize) .scriptSize
  let final ← evalLoop ctx script.length script ⟨stack, [], [], 0, script⟩
  require (final.vfExec = []) .unbalancedConditional
  return final.stack

end

variable (crypto : Crypto) (checker : SignatureChecker) (flags : ScriptFlags)

def requireTrue (stack : List Bytes) : Except ScriptError Unit :=
  match stack with
  | [] => .error .evalFalse
  | top :: _ => require (castToBool top) .evalFalse

def witnessScript (witness : List Bytes) (program : Bytes) :
    Except ScriptError (Bytes × List Bytes) :=
  if program.length = 32 then
    match witness.reverse with
    | [] => .error .witnessProgramWitnessEmpty
    | script :: stack => do
        require (crypto.sha256 script = program) .witnessProgramMismatch
        return (script, stack)
  else if program.length = 20 then do
    require (witness.length = 2) .witnessProgramMismatch
    return ([opDup, opHash160] ++ pushData program ++ [opEqualverify, opChecksig], witness.reverse)
  else .error .witnessProgramWrongLength

def verifyWitnessProgram (witness : List Bytes) (version : Nat) (program : Bytes) :
    Except ScriptError Unit :=
  if version = 0 then do
    let (script, stack) ← witnessScript crypto witness program
    require (stack.all fun item => item.length ≤ maxScriptElementSize) .pushSize
    let final ← evalScript ⟨crypto, checker, flags, .witnessV0⟩ stack script
    require (final.length = 1) .evalFalse
    requireTrue final
  else require (!flags.discourageUpgradableWitnessProgram) .discourageUpgradableWitnessProgram

/-- A witness program in `script`, which its spender has to give in the exact form
`exact`: whether there was one, and the stack left for the last checks. -/
def verifyWitness (witness : List Bytes) (script : Bytes) (exact : Bool) (malleated : ScriptError)
    (stack : List Bytes) : Except ScriptError (Bool × List Bytes) :=
  match isWitnessProgram script with
  | some (version, program) =>
    if flags.witness then do
      require exact malleated
      verifyWitnessProgram crypto checker flags witness version program
      return (true, stack.take 1)
    else .ok (false, stack)
  | none => .ok (false, stack)

/-- The script whose hash the output pays to, run on the stack of the input. -/
def verifyRedeemScript (scriptSig : Bytes) (witness stackCopy : List Bytes) :
    Except ScriptError (Bool × List Bytes) := do
  require (isPushOnly scriptSig) .sigPushonly
  match stackCopy with
  | [] => .error .unknownError
  | pubKey2 :: below => do
      let stack ← evalScript ⟨crypto, checker, flags, .base⟩ below pubKey2
      requireTrue stack
      verifyWitness crypto checker flags witness pubKey2 (scriptSig = pushData pubKey2)
        .witnessMalleatedP2sh stack

def verifyP2sh (scriptSig scriptPubKey : Bytes) (witness stackCopy : List Bytes)
    (bare : Bool × List Bytes) : Except ScriptError (Bool × List Bytes) :=
  if flags.p2sh && isPayToScriptHash scriptPubKey then
    verifyRedeemScript crypto checker flags scriptSig witness stackCopy
  else .ok bare

def verifyScript (scriptSig scriptPubKey : Bytes) (witness : List Bytes) :
    Except ScriptError Unit := do
  require (!flags.sigpushonly || isPushOnly scriptSig) .sigPushonly
  let stackCopy ← evalScript ⟨crypto, checker, flags, .base⟩ [] scriptSig
  let stack ← evalScript ⟨crypto, checker, flags, .base⟩ stackCopy scriptPubKey
  requireTrue stack
  let bare ← verifyWitness crypto checker flags witness scriptPubKey (scriptSig = [])
    .witnessMalleated stack
  let final ← verifyP2sh crypto checker flags scriptSig scriptPubKey witness stackCopy bare
  require (!flags.cleanstack || final.2.length = 1) .cleanstack
  require (!flags.witness || bare.1 || final.1 || witness = []) .witnessUnexpected

end Phicoin.Interpreter
