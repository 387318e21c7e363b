import Phicoin.Lib.ByteReader

/-! # Scripts

A script is its byte string.  This module has the opcodes, the step that reads
one instruction, and the byte-pattern predicates that classify an output.  An
asset output is recognised by the byte at position 25 and a three-byte marker
after it; nothing before position 25 is looked at. -/

namespace Phicoin

abbrev Bytes := List UInt8

def ascii (text : String) : Bytes := text.toList.map fun c => UInt8.ofNat c.toNat

def textOf (bytes : Bytes) : String := String.ofList (bytes.map fun b => Char.ofNat b.toNat)

def op0 : UInt8 := 0x00
def opPushdata1 : UInt8 := 0x4c
def opPushdata2 : UInt8 := 0x4d
def opPushdata4 : UInt8 := 0x4e
def opReserved : UInt8 := 0x50
def op1 : UInt8 := 0x51
def op16 : UInt8 := 0x60
def opReturn : UInt8 := 0x6a
def opDrop : UInt8 := 0x75
def opDup : UInt8 := 0x76
def opEqual : UInt8 := 0x87
def opEqualverify : UInt8 := 0x88
def opHash160 : UInt8 := 0xa9
def opChecksig : UInt8 := 0xac
def opCheckmultisig : UInt8 := 0xae
def opPhiAsset : UInt8 := 0xc0

def maxScriptSize : Nat := 10000

/-- `MAX_SIZE` of the serialiser. -/
def maxSize : Nat := 0x02000000

variable (script : Bytes)

/-- The byte at a position.  The size checks cover every position the source
reads but one, position 32 of a 32-byte script, which reads as zero here. -/
def byteAt (i : Nat) : UInt8 := script.getD i 0

/-- An operand of `size` bytes. -/
def takeOperand (opcode : UInt8) (size : Nat) (rest : Bytes) : Option (UInt8 × Bytes × Bytes) :=
  if rest.length < size then none
  else some (opcode, rest.take size, rest.drop size)

/-- `GetOp2`: the next opcode, its operand and the rest of the script.
Everything after `OP_PHI_ASSET` is its operand. -/
def getOp : Bytes → Option (UInt8 × Bytes × Bytes)
  | [] => none
  | opcode :: rest =>
    if opcode < opPushdata1 then takeOperand opcode opcode.toNat rest
    else if opcode = opPushdata1 then
      if rest.length < 1 then none
      else takeOperand opcode (ByteReader.leValue (rest.take 1)) (rest.drop 1)
    else if opcode = opPushdata2 then
      if rest.length < 2 then none
      else takeOperand opcode (ByteReader.leValue (rest.take 2)) (rest.drop 2)
    else if opcode = opPushdata4 then
      if rest.length < 4 then none
      else takeOperand opcode (ByteReader.leValue (rest.take 4)) (rest.drop 4)
    else if opcode = opPhiAsset then some (opcode, rest, [])
    else some (opcode, [], rest)

/-- The instructions up to the end of the script or the first that cannot be
read, and whether the end was reached.  `fuel` bounds the number of
instructions; the length of the script is enough. -/
def instructions : Nat → Bytes → List (UInt8 × Bytes) × Bool
  | 0, script => ([], script.isEmpty)
  | fuel + 1, script =>
    if script.isEmpty then ([], true)
    else match getOp script with
      | none => ([], false)
      | some (opcode, operand, rest) =>
        let tail := instructions fuel rest
        ((opcode, operand) :: tail.1, tail.2)

/-- `CScript::Find`: how often an opcode occurs. -/
def find (opcode : UInt8) : Nat :=
  (instructions script.length script).1.countP fun instruction => instruction.1 = opcode

def isPushOnly : Bool :=
  let ops := instructions script.length script
  ops.2 && ops.1.all fun instruction => instruction.1 ≤ op16

/-- `operator<<` of a byte vector: the shortest push. -/
def pushData (data : Bytes) : Bytes :=
  if data.length < 0x4c then UInt8.ofNat data.length :: data
  else if data.length ≤ 0xff then opPushdata1 :: UInt8.ofNat data.length :: data
  else if data.length ≤ 0xffff then opPushdata2 :: ByteReader.leBytes 2 data.length ++ data
  else opPushdata4 :: ByteReader.leBytes 4 data.length ++ data

inductive TxnOutType where
  | nonstandard
  | pubkey
  | pubkeyHash
  | scriptHash
  | multisig
  | nullData
  | witnessV0ScriptHash
  | witnessV0KeyHash
  | newAsset
  | reissueAsset
  | transferAsset
  | restrictedAssetData
deriving DecidableEq

def isPayToPublicKeyHash : Bool :=
  script.length = 25 && byteAt script 0 = opDup && byteAt script 1 = opHash160 &&
    byteAt script 2 = 0x14 && byteAt script 23 = opEqualverify && byteAt script 24 = opChecksig

def isPayToScriptHash : Bool :=
  script.length = 23 && byteAt script 0 = opHash160 && byteAt script 1 = 0x14 &&
    byteAt script 22 = opEqual

def isWitnessProgram : Option (Nat × Bytes) :=
  if script.length < 4 || script.length > 42 then none
  else if byteAt script 0 ≠ op0 && (byteAt script 0 < op1 || byteAt script 0 > op16) then none
  else if (byteAt script 1).toNat + 2 = script.length then
    let version := if byteAt script 0 = op0 then 0 else (byteAt script 0).toNat - 0x50
    some (version, script.drop 2)
  else none

def phiR : UInt8 := 114
def phiV : UInt8 := 118
def phiN : UInt8 := 110
def phiQ : UInt8 := 113
def phiT : UInt8 := 116
def phiO : UInt8 := 111

/-- The marker `rvn` at a position. -/
def markerAt (i : Nat) : Bool :=
  byteAt script i = phiR && byteAt script (i + 1) = phiV && byteAt script (i + 2) = phiN

/-- The position of the type byte: after the marker, whose place depends on how
the asset data is pushed. -/
def assetTypeIndex : Option Nat :=
  if byteAt script 26 < opPushdata1 then
    if markerAt script 27 then some 30 else none
  else if byteAt script 26 = opPushdata1 then
    if markerAt script 28 then some 31 else none
  else if byteAt script 26 = opPushdata2 then
    if markerAt script 29 then some 32 else none
  else none

/-- What `IsAssetScript` reports of an asset output. -/
structure AssetScript where
  nType : TxnOutType
  fIsOwner : Bool
  nStartingIndex : Nat
deriving DecidableEq

/-- `CScript::IsAssetScript` with its three output parameters. -/
def isAssetScript : Option AssetScript :=
  if script.length > 31 && byteAt script 25 = opPhiAsset then
    match assetTypeIndex script with
    | none => none
    | some index =>
      if byteAt script index = phiT then some ⟨.transferAsset, false, index + 1⟩
      else if byteAt script index = phiQ && script.length > 39 then
        some ⟨.newAsset, false, index + 1⟩
      else if byteAt script index = phiO then some ⟨.newAsset, true, index + 1⟩
      else if byteAt script index = phiR then some ⟨.reissueAsset, false, index + 1⟩
      else none
  else none

def assetScriptOf (nType : TxnOutType) (fIsOwner : Bool) (script : Bytes) : Option Nat :=
  match isAssetScript script with
  | some info =>
    if info.nType = nType && info.fIsOwner = fIsOwner then some info.nStartingIndex else none
  | none => none

def isScriptNewAsset : Option Nat := assetScriptOf .newAsset false script
def isScriptOwnerAsset : Option Nat := assetScriptOf .newAsset true script
def isScriptReissueAsset : Option Nat := assetScriptOf .reissueAsset false script
def isScriptTransferAsset : Option Nat := assetScriptOf .transferAsset false script

/-- `CScript::IsNewAsset`, `IsOwnerAsset`, `IsReissueAsset`, `IsTransferAsset`. -/
def isNewAssetScript : Bool := (isScriptNewAsset script).isSome
def isOwnerAssetScript : Bool := (isScriptOwnerAsset script).isSome
def isReissueAssetScript : Bool := (isScriptReissueAsset script).isSome
def isTransferAssetScript : Bool := (isScriptTransferAsset script).isSome

def isNullAssetTxDataScript : Bool :=
  script.length > 23 && byteAt script 0 = opPhiAsset && byteAt script 1 = 0x14

def isNullGlobalRestrictionAssetTxDataScript : Bool :=
  script.length > 6 && byteAt script 0 = opPhiAsset && byteAt script 1 = opReserved &&
    byteAt script 2 = opReserved

def isNullAssetVerifierTxDataScript : Bool :=
  script.length > 3 && byteAt script 0 = opPhiAsset && byteAt script 1 = opReserved &&
    byteAt script 2 ≠ opReserved

def isNullAsset : Bool :=
  isNullAssetTxDataScript script || isNullGlobalRestrictionAssetTxDataScript script ||
    isNullAssetVerifierTxDataScript script

end Phicoin
