import Phicoin.Lib.Encoding
import Phicoin.WebTransaction

/-! # What the signatures of the web wallet cover

A signature of a legacy input is over the hash of the transaction with the script of
the coin in that input's place.  The daemon takes the transaction it received, the
builder of the wallet the inputs it was given, before it sets their sequence numbers,
with no lock time, and the signer of raw transactions the one it parsed. -/

namespace Phicoin.Web

open ByteReader Check List Option Prod

structure RawTxInput where
  prevTxId : Bytes
  vout : Nat
  scriptSig : Bytes
  sequence : Nat
  deriving DecidableEq

structure ParsedTx where
  version : Int
  inputs : List RawTxInput
  outputs : List TxOutput
  locktime : Nat
  deriving DecidableEq

def TxOutput.serialized (out : TxOutput) : Bytes :=
  signedBytes 8 out.value ++ writeString out.scriptPubKey

/-- The inputs in a digest: the script stands in the input that is signed, and the
other inputs have none. -/
def digestInputs (countOf : Nat → Bytes) (inputs : List (Bytes × Nat)) (nIn : Nat)
    (scriptCode : Bytes) : Bytes :=
  inputs.zipIdx.flatMap fun entry => entry.1.1 ++
    (if entry.2 = nIn then countOf scriptCode.length ++ scriptCode else countOf 0) ++
    leBytes 4 entry.1.2

def RawTxInput.outpoint (input : RawTxInput) : Bytes := input.prevTxId ++ leBytes 4 input.vout

/-- What `SignatureHash` of the daemon hashes for `SIGHASH_ALL` and a script without
`OP_CODESEPARATOR`. -/
def ParsedTx.signaturePreimage (tx : ParsedTx) (nIn : Nat) (scriptCode : Bytes)
    (nHashType : Nat) : Bytes :=
  signedBytes 4 tx.version ++ writeCompactSize tx.inputs.length ++
    digestInputs writeCompactSize (tx.inputs.map fun input => (input.outpoint, input.sequence)) nIn
      scriptCode ++
    writeCompactSize tx.outputs.length ++ tx.outputs.flatMap TxOutput.serialized ++
    leBytes 4 tx.locktime ++ leBytes 4 nHashType

def sentTx (options : PSBTBuildOptions) (outputs : List TxOutput) (scriptSigs : List Bytes) :
    ParsedTx where
  version := 2
  inputs := ((effectiveInputs options).zip scriptSigs).map fun entry =>
    ⟨reversed entry.1.txid, entry.1.vout, entry.2, entry.1.sequenceOrFinal⟩
  outputs := outputs
  locktime := options.locktime

theorem writeVarInt_eq {size : Nat} (small : size ≤ 0xffff) :
    writeVarInt size = writeCompactSize size := by
  unfold writeVarInt writeCompactSize
  split_ifs <;> rfl

theorem length_writeCompactSize_le_writeVarInt (size : Nat) :
    (writeCompactSize size).length ≤ (writeVarInt size).length := by
  unfold writeVarInt writeCompactSize
  split_ifs <;> simp [length_leBytes]

theorem writeVarInt_eq_iff (size : Nat) :
    writeVarInt size = writeCompactSize size ↔ size ≤ 0xffff := by
  refine ⟨fun same => ?_, writeVarInt_eq⟩
  by_contra large
  have lengths := congrArg List.length same
  have heads := congrArg head? same
  unfold writeVarInt writeCompactSize at lengths heads
  rw [if_neg (by omega), if_neg (by omega), if_neg (by omega), if_neg (by omega)] at lengths heads
  split_ifs at lengths heads
  · simp [length_leBytes] at lengths
  · exact absurd heads (by simp [leBytes])

def sentSequence (options : PSBTBuildOptions) (input : PSBTInput) : Nat :=
  if options.replaceable then 0xfffffffd else input.sequenceOrFinal

variable {scriptCode : Bytes}

theorem digestInputs_writeVarInt {inputs : List (Bytes × Nat)} {nIn : Nat}
    (short : scriptCode.length ≤ 0xffff) : digestInputs writeVarInt inputs nIn scriptCode =
      digestInputs writeCompactSize inputs nIn scriptCode := by
  unfold digestInputs
  rw [writeVarInt_eq short, writeVarInt_eq (Nat.zero_le _)]

section

variable {countOf : Nat → Bytes} {inputs : List PSBTInput} {nIn : Nat} {scriptCode : Bytes}
  (f g : PSBTInput → Nat)

theorem length_digestInputs :
    (digestInputs countOf (inputs.map fun input => (outpointBytes input, f input)) nIn
      scriptCode).length =
    (digestInputs countOf (inputs.map fun input => (outpointBytes input, g input)) nIn
      scriptCode).length := by
  unfold digestInputs
  rw [zipIdx_map, zipIdx_map, flatMap_map, flatMap_map, length_flatMap,
    length_flatMap]
  simp only [map_fst, map_snd, id_eq, length_append, length_leBytes]

theorem digestInputs_eq_iff :
    digestInputs countOf (inputs.map fun input => (outpointBytes input, f input)) nIn scriptCode =
      digestInputs countOf (inputs.map fun input => (outpointBytes input, g input)) nIn scriptCode ↔
    ∀ input ∈ inputs, f input % 2 ^ 32 = g input % 2 ^ 32 := by
  unfold digestInputs
  rw [zipIdx_map, zipIdx_map, flatMap_map, flatMap_map,
    flatMap_eq_flatMap_iff (fun entry _ => by simp [length_leBytes])]
  simp only [map_fst, map_snd, id_eq, append_cancel_left_eq, leBytes_eq_iff]
  constructor
  · intro same input member
    obtain ⟨index, bound, rfl⟩ := mem_iff_getElem.mp member
    exact same (inputs[index], index) (mk_mem_zipIdx_iff_getElem?.mpr (by simp [bound]))
  · intro same entry member
    exact same entry.1 (fst_mem_of_mem_zipIdx member)

end

theorem sighashP2PKHPreimage_eq (inputs : List PSBTInput) (outputs : List TxOutput)
    (inputIndex : Nat) (scriptCode : Bytes) (flags : Nat) :
    sighashP2PKHPreimage inputs outputs inputIndex scriptCode flags =
      signedBytes 4 2 ++ (writeVarInt inputs.length ++
        (digestInputs writeVarInt (inputs.map fun input =>
          (outpointBytes input, input.sequenceOrFinal)) inputIndex scriptCode ++
        (writeVarInt outputs.length ++ (outputs.flatMap TxOutput.bytes ++ (leBytes 4 0 ++
          leBytes 4 flags))))) := by
  unfold sighashP2PKHPreimage digestInputs
  rw [zipIdx_map, flatMap_map]
  simp only [append_assoc, map_fst, map_snd, id_eq]

theorem sentTx_signaturePreimage (options : PSBTBuildOptions) (outputs : List TxOutput)
    {scriptSigs : List Bytes} (each : scriptSigs.length = options.inputs.length) (nIn : Nat)
    (scriptCode : Bytes) (flags : Nat) :
    (sentTx options outputs scriptSigs).signaturePreimage nIn scriptCode flags =
      signedBytes 4 2 ++ (writeCompactSize options.inputs.length ++
        (digestInputs writeCompactSize (options.inputs.map fun input =>
          (outpointBytes input, sentSequence options input)) nIn scriptCode ++
        (writeCompactSize outputs.length ++ (outputs.flatMap TxOutput.serialized ++
          (leBytes 4 options.locktime ++ leBytes 4 flags))))) := by
  have effective : (effectiveInputs options).length = options.inputs.length := by
    unfold effectiveInputs
    rw [length_map]
  have inputs : ((sentTx options outputs scriptSigs).inputs.map fun input =>
      (input.outpoint, input.sequence)) = options.inputs.map fun input =>
        (outpointBytes input, sentSequence options input) := by
    unfold sentTx
    rw [List.map_map]
    calc _ = ((effectiveInputs options).zip scriptSigs).map ((fun input : PSBTInput =>
          (outpointBytes input, input.sequenceOrFinal)) ∘ Prod.fst) := rfl
      _ = (effectiveInputs options).map fun input : PSBTInput =>
          (outpointBytes input, input.sequenceOrFinal) := by
        rw [← List.map_map, List.map_fst_zip (by omega)]
      _ = _ := by
        unfold effectiveInputs
        rw [List.map_map]
        rfl
  have count : (sentTx options outputs scriptSigs).inputs.length = options.inputs.length := by
    simpa using congrArg List.length inputs
  unfold ParsedTx.signaturePreimage
  rw [inputs, count]
  simp only [append_assoc]
  rfl

/-- What the builder signs for a legacy input is what the daemon checks when the
options are such. -/
structure Covered (options : PSBTBuildOptions) : Prop where
  inputs : options.inputs.length ≤ 0xffff
  outputs : options.outputs.length ≤ 0xffff
  sequences : options.replaceable = true →
    ∀ input ∈ options.inputs, input.sequenceOrFinal % 2 ^ 32 = 0xfffffffd
  locktime : options.locktime % 2 ^ 32 = 0

theorem length_p2pkhScript (hash : Bytes) : (p2pkhScript hash).length = 25 := by
  simp [p2pkhScript, fixedHash]

theorem length_p2shScript (hash : Bytes) : (p2shScript hash).length = 23 := by
  simp [p2shScript, fixedHash]

variable {crypto : Crypto}

theorem length_buildScriptFromAddress_le {address script : Bytes}
    (built : buildScriptFromAddress crypto address = .ok script) : script.length ≤ 25 := by
  unfold buildScriptFromAddress at built
  split at built
  · obtain ⟨hash, _, _, _, built⟩ := ok_bind₂ built
    rw [← pure_eq_ok.mp built, length_p2pkhScript]
  · split at built
    · obtain ⟨hash, _, _, _, built⟩ := ok_bind₂ built
      rw [← pure_eq_ok.mp built, length_p2shScript]
      omega
    · rw [← pure_eq_ok.mp built]
      exact Nat.zero_le 25

variable {outputs : List TxOutput}

theorem flatMap_bytes_eq (short : ∀ out ∈ outputs, out.scriptPubKey.length ≤ 25) :
    outputs.flatMap TxOutput.bytes = outputs.flatMap TxOutput.serialized := by
  refine flatMap_congr fun out member => ?_
  have small := short out member
  unfold TxOutput.bytes TxOutput.serialized writeString
  rw [writeVarInt_eq (by omega), append_assoc]

theorem preimages_eq_iff (options : PSBTBuildOptions)
    {scriptSigs : List Bytes} (each : scriptSigs.length = options.inputs.length)
    (count : outputs.length = options.outputs.length)
    (short : ∀ out ∈ outputs, out.scriptPubKey.length ≤ 25) (nIn : Nat)
    (code : scriptCode.length ≤ 0xffff) (flags : Nat) :
    sighashP2PKHPreimage options.inputs outputs nIn scriptCode flags =
      (sentTx options outputs scriptSigs).signaturePreimage nIn scriptCode flags ↔
    Covered options := by
  rw [sighashP2PKHPreimage_eq, sentTx_signaturePreimage options outputs each,
    append_cancel_left_eq, digestInputs_writeVarInt code, flatMap_bytes_eq short]
  have sequences := @digestInputs_eq_iff writeCompactSize options.inputs nIn scriptCode
    PSBTInput.sequenceOrFinal (sentSequence options)
  have sameLength := @length_digestInputs writeCompactSize options.inputs nIn scriptCode
    PSBTInput.sequenceOrFinal (sentSequence options)
  constructor
  · intro same
    -- the counts can only be longer, so both have the length of the format
    have lengths := congrArg List.length same
    have inputCount := length_writeCompactSize_le_writeVarInt options.inputs.length
    have outputCount := length_writeCompactSize_le_writeVarInt outputs.length
    simp only [length_append, length_leBytes] at lengths
    obtain ⟨inputsEq, same⟩ := append_inj same (by omega)
    obtain ⟨digestEq, same⟩ := append_inj same sameLength
    obtain ⟨outputsEq, same⟩ := append_inj same (by omega)
    rw [append_cancel_left_eq, append_cancel_right_eq, leBytes_eq_iff] at same
    refine ⟨(writeVarInt_eq_iff _).mp inputsEq, count ▸ (writeVarInt_eq_iff _).mp outputsEq, ?_,
      same.symm⟩
    intro replaceable input member
    rw [sequences.mp digestEq input member, sentSequence, if_pos replaceable]
    rfl
  · intro covered
    have digestEq := sequences.mpr fun input member => by
      unfold sentSequence
      split
      · rename_i replaceable
        exact covered.sequences replaceable input member
      · rfl
    have locktime : leBytes 4 0 = leBytes 4 options.locktime :=
      leBytes_eq_iff.mpr covered.locktime.symm
    rw [writeVarInt_eq covered.inputs, writeVarInt_eq (count ▸ covered.outputs), digestEq, locktime]

theorem legacy_of_signInput {inputs : List PSBTInput}
    {input : PSBTInput} {index : Nat} {result : Bytes × List Bytes}
    (signed : signInput crypto inputs outputs (input, index) = .ok result)
    (legacy : isSegwit input.scriptPubKey = false) :
    ∃ privateKey pubKey, result = (p2pkhScriptSig (crypto.sign (crypto.hash256
      (sighashP2PKHPreimage inputs outputs index (p2pkhScriptPubKey crypto pubKey) sighashAll))
      privateKey) pubKey, []) := by
  unfold signInput at signed
  obtain ⟨privateKey, _, publicKey, _, compressedKey, _, signed⟩ := ok_bind₃ signed
  have returned := pure_eq_ok.mp signed
  unfold inputDigest computeSighashP2PKH at returned
  simp only [legacy, Bool.false_eq_true, if_false] at returned
  exact ⟨privateKey.take 32, compressedKey, returned.symm⟩

namespace Signer

open TwosComplement

def writeVarInt (n : Nat) : Bytes :=
  if n < 0xfd then leBytes 1 n
  else if n ≤ 0xffff then 0xfd :: leBytes 2 n
  else 0xfe :: leBytes 4 n

def byteAt (bytes : Bytes) (offset : Int) : Option UInt8 :=
  if offset < 0 then none else bytes[offset.toNat]?

/-- `count` bytes from an offset as an unsigned number; an absent byte counts as zero. -/
def bitsFrom (bytes : Bytes) (offset : Int) (count : Nat) : Nat :=
  leValue ((List.range count).map fun (k : Nat) => (byteAt bytes (offset + k)).getD 0)

/-- `readVarInt`: the value and its size.  The shifts of the third form give a signed word. -/
def readVarInt (bytes : Bytes) (offset : Int) : Int × Int :=
  match byteAt bytes offset with
  | none => (0, 9)
  | some b =>
    if b < 0xfd then (b.toNat, 1)
    else if b = 0xfd then (bitsFrom bytes (offset + 1) 2, 3)
    else if b = 0xfe then (wrap 32 (bitsFrom bytes (offset + 1) 4), 5)
    else (0, 9)

/-- `bytes.slice`; a negative index counts from the end. -/
def slice (bytes : Bytes) (start stop : Int) : Bytes :=
  let index (k : Int) : Nat := if k < 0 then (bytes.length + k).toNat else k.toNat
  (bytes.take (index stop)).drop (index start)

/-- A `DataView`, which is refused when it is not inside the array. -/
def dataView (bytes : Bytes) (offset : Int) (size : Nat) : Option Bytes :=
  if 0 ≤ offset ∧ offset + size ≤ bytes.length then some ((bytes.drop offset.toNat).take size)
  else none

def parseInputs (bytes : Bytes) : Nat → Int → Option (List RawTxInput × Int)
  | 0, offset => some ([], offset)
  | n + 1, offset => do
      let prevTxId := slice bytes offset (offset + 32)
      let vout ← dataView bytes (offset + 32) 4
      let (scriptLen, size) := readVarInt bytes (offset + 36)
      let start := offset + 36 + size
      let scriptSig := slice bytes start (start + scriptLen)
      let sequence ← dataView bytes (start + scriptLen) 4
      let (rest, final) ← parseInputs bytes n (start + scriptLen + 4)
      return (⟨prevTxId, leValue vout, scriptSig, leValue sequence⟩ :: rest, final)

def parseOutputs (bytes : Bytes) : Nat → Int → Option (List TxOutput × Int)
  | 0, offset => some ([], offset)
  | n + 1, offset => do
      let value ← dataView bytes offset 8
      let (scriptLen, size) := readVarInt bytes (offset + 8)
      let start := offset + 8 + size
      let scriptPubKey := slice bytes start (start + scriptLen)
      let (rest, final) ← parseOutputs bytes n (start + scriptLen)
      return (⟨wrap 64 (leValue value), scriptPubKey⟩ :: rest, final)

/-- `parseRawTx`; what it throws is `none`. -/
def parseRawTx (bytes : Bytes) : Option ParsedTx := do
  let version ← dataView bytes 0 4
  let (inLen, inSize) := readVarInt bytes 4
  let (inputs, offset) ← parseInputs bytes inLen.toNat (4 + inSize)
  let (outLen, outSize) := readVarInt bytes offset
  let (outputs, offset) ← parseOutputs bytes outLen.toNat (offset + outSize)
  let locktime ← dataView bytes offset 4
  return ⟨wrap 32 (leValue version), inputs, outputs, leValue locktime⟩

def outputBytes (out : TxOutput) : Bytes :=
  signedBytes 8 out.value ++ writeVarInt out.scriptPubKey.length ++ out.scriptPubKey

def buildRawTxHex (tx : ParsedTx) : Bytes :=
  signedBytes 4 tx.version ++ writeVarInt tx.inputs.length ++
    (tx.inputs.flatMap fun inp => inp.prevTxId ++ leBytes 4 inp.vout ++
      writeVarInt inp.scriptSig.length ++ inp.scriptSig ++ leBytes 4 inp.sequence) ++
    writeVarInt tx.outputs.length ++ tx.outputs.flatMap outputBytes ++ leBytes 4 tx.locktime

/-- What `sighashLegacyP2PKH` hashes. -/
def sighashLegacyPreimage (tx : ParsedTx) (inputIndex : Nat) (scriptCode : Bytes)
    (hashType : Nat) : Bytes :=
  signedBytes 4 tx.version ++ writeVarInt tx.inputs.length ++
    (tx.inputs.zipIdx.flatMap fun entry => entry.1.prevTxId ++ leBytes 4 entry.1.vout ++
      (if entry.2 = inputIndex then writeVarInt scriptCode.length ++ scriptCode
        else writeVarInt 0) ++ leBytes 4 entry.1.sequence) ++
    writeVarInt tx.outputs.length ++ tx.outputs.flatMap outputBytes ++ leBytes 4 tx.locktime ++
    leBytes 4 hashType

def sighashLegacyP2PKH (crypto : Crypto) (tx : ParsedTx) (inputIndex : Nat) (scriptCode : Bytes)
    (hashType : Nat) : Bytes :=
  crypto.hash256 (sighashLegacyPreimage tx inputIndex scriptCode hashType)

def buildP2PKHScriptSig (signature : Bytes) (sighash : Nat) (pubkey : Bytes) : Bytes :=
  let sigData := signature ++ [UInt8.ofNat sighash]
  writeVarInt sigData.length ++ sigData ++ writeVarInt pubkey.length ++ pubkey

structure SigningInput where
  scriptPubKey : Bytes
  privateKey : Bytes
  sighashType : Option Nat

def SigningInput.sighashTypeOrAll (input : SigningInput) : Nat := input.sighashType.getD sighashAll

def scriptSigOf (crypto : Crypto) (getPublicKey : Bytes → Bytes) (tx : ParsedTx)
    (input : SigningInput) (index : Nat) : Bytes :=
  buildP2PKHScriptSig (crypto.sign (sighashLegacyP2PKH crypto tx index input.scriptPubKey
    input.sighashTypeOrAll) input.privateKey) input.sighashTypeOrAll (getPublicKey input.privateKey)

def signedTx (crypto : Crypto) (getPublicKey : Bytes → Bytes) (tx : ParsedTx)
    (inputs : List SigningInput) : ParsedTx :=
  { tx with inputs := (tx.inputs.zip inputs).zipIdx.map fun entry =>
      { entry.1.1 with scriptSig := scriptSigOf crypto getPublicKey tx entry.1.2 entry.2 } }

def signRawTransaction (crypto : Crypto) (getPublicKey : Bytes → Bytes) (rawTx : Bytes)
    (inputs : List SigningInput) : Option Bytes := do
  let tx ← parseRawTx rawTx
  if tx.inputs.length ≠ inputs.length then none
  else return buildRawTxHex (signedTx crypto getPublicKey tx inputs)

theorem writeVarInt_eq {n : Nat} (small : n ≤ 0xffffffff) : writeVarInt n = writeCompactSize n := by
  unfold writeVarInt writeCompactSize
  split_ifs <;> rfl

theorem bitsFrom_lt (bytes : Bytes) (offset : Int) (count : Nat) :
    bitsFrom bytes offset count < 256 ^ count := by
  have bound := leValue_lt ((range count).map fun (k : Nat) => (byteAt bytes (offset + k)).getD 0)
  rwa [length_map, length_range] at bound

theorem readVarInt_le (bytes : Bytes) (offset : Int) : (readVarInt bytes offset).1 ≤ 0xffffffff := by
  unfold readVarInt
  split
  · simp
  · rename_i b _
    have byte := b.toNat_lt
    have two := bitsFrom_lt bytes (offset + 1) 2
    have word : wrap 32 (bitsFrom bytes (offset + 1) 4) ≤ 0xffffffff := by
      have half := @Int.bmod_lt (bitsFrom bytes (offset + 1) 4) (2 ^ 32) (by norm_num)
      unfold wrap
      omega
    split_ifs
    · simp only
      omega
    · simp only
      omega
    · simp only
      omega
    · simp

theorem length_slice_le {bytes : Bytes} {start stop : Int} (low : 0 ≤ start) (high : 0 ≤ stop) :
    (slice bytes start stop).length ≤ (stop - start).toNat := by
  unfold slice
  simp only
  rw [if_neg (by omega), if_neg (by omega), length_drop, length_take]
  omega

variable {bytes : Bytes} {offset : Int}

theorem dataView_nonneg {view : Bytes} {size : Nat}
    (viewed : dataView bytes offset size = some view) : 0 ≤ offset := by
  unfold dataView at viewed
  split_ifs at viewed with inside
  exact inside.1

theorem length_parseInputs {n : Nat} {final : Int}
    {inputs : List RawTxInput} (parsed : parseInputs bytes n offset = some (inputs, final)) :
    inputs.length = n := by
  induction n generalizing offset inputs with
  | zero =>
    cases parsed
    rfl
  | succ n ih =>
    unfold parseInputs at parsed
    obtain ⟨vout, _, parsed⟩ := bind_eq_some_iff.mp parsed
    obtain ⟨sequence, _, parsed⟩ := bind_eq_some_iff.mp parsed
    obtain ⟨⟨rest, last⟩, others, parsed⟩ := bind_eq_some_iff.mp parsed
    cases parsed
    rw [length_cons, ih others]

theorem parseOutputs_short {n : Nat} {final : Int}
    (parsed : parseOutputs bytes n offset = some (outputs, final)) (inside : 0 ≤ final) :
    0 ≤ offset ∧ outputs.length = n ∧ ∀ out ∈ outputs, out.scriptPubKey.length ≤ 0xffffffff := by
  induction n generalizing offset outputs with
  | zero =>
    cases parsed
    exact ⟨inside, rfl, by simp⟩
  | succ n ih =>
    unfold parseOutputs at parsed
    obtain ⟨value, viewed, parsed⟩ := bind_eq_some_iff.mp parsed
    obtain ⟨⟨rest, last⟩, others, parsed⟩ := bind_eq_some_iff.mp parsed
    cases parsed
    obtain ⟨after, count, short⟩ := ih others
    change 0 ≤ offset + 8 + (readVarInt bytes (offset + 8)).2 +
      (readVarInt bytes (offset + 8)).1 at after
    have nonneg := dataView_nonneg viewed
    refine ⟨nonneg, by rw [length_cons, count], ?_⟩
    have size : 0 ≤ (readVarInt bytes (offset + 8)).2 := by
      unfold readVarInt
      split
      · decide
      · split_ifs <;> simp
    have bound := readVarInt_le bytes (offset + 8)
    have script := @length_slice_le bytes (offset + 8 + (readVarInt bytes (offset + 8)).2) _
      (by omega) after
    rw [forall_mem_cons]
    refine ⟨script.trans ?_, short⟩
    omega

theorem parseRawTx_small {tx : ParsedTx} (parsed : parseRawTx bytes = some tx) :
    tx.inputs.length ≤ 0xffffffff ∧ tx.outputs.length ≤ 0xffffffff ∧
      ∀ out ∈ tx.outputs, out.scriptPubKey.length ≤ 0xffffffff := by
  unfold parseRawTx at parsed
  obtain ⟨version, _, parsed⟩ := bind_eq_some_iff.mp parsed
  obtain ⟨⟨inputs, offset⟩, inputsParsed, parsed⟩ := bind_eq_some_iff.mp parsed
  obtain ⟨⟨outputs, final⟩, outputsParsed, parsed⟩ := bind_eq_some_iff.mp parsed
  obtain ⟨locktime, viewed, parsed⟩ := bind_eq_some_iff.mp parsed
  simp only [Option.pure_def, Option.some.injEq] at parsed
  subst parsed
  obtain ⟨_, count, short⟩ := parseOutputs_short outputsParsed (dataView_nonneg viewed)
  have inputCount : inputs.length = (readVarInt bytes 4).1.toNat := length_parseInputs inputsParsed
  have outputCount : outputs.length = (readVarInt bytes offset).1.toNat := count
  have inputBound := readVarInt_le bytes 4
  have outputBound := readVarInt_le bytes offset
  refine ⟨?_, ?_, short⟩
  · simp only
    omega
  · simp only
    omega

theorem sighashLegacyPreimage_eq {tx : ParsedTx} (inputs : tx.inputs.length ≤ 0xffffffff)
    (outputs : tx.outputs.length ≤ 0xffffffff)
    (short : ∀ out ∈ tx.outputs, out.scriptPubKey.length ≤ 0xffffffff) (index : Nat)
    (code : scriptCode.length ≤ 0xffffffff) (hashType : Nat) :
    sighashLegacyPreimage tx index scriptCode hashType =
      tx.signaturePreimage index scriptCode hashType := by
  have outputsEq : tx.outputs.flatMap outputBytes = tx.outputs.flatMap TxOutput.serialized := by
    refine flatMap_congr fun out member => ?_
    unfold outputBytes TxOutput.serialized writeString
    rw [writeVarInt_eq (short out member), append_assoc]
  unfold sighashLegacyPreimage ParsedTx.signaturePreimage digestInputs
  rw [writeVarInt_eq inputs, writeVarInt_eq outputs, writeVarInt_eq code,
    writeVarInt_eq (Nat.zero_le _), outputsEq, zipIdx_map, flatMap_map]
  simp only [append_assoc, map_fst, map_snd, id_eq, RawTxInput.outpoint]

variable (crypto : Crypto) (getPublicKey : Bytes → Bytes) (tx : ParsedTx)
  {inputs : List SigningInput}

theorem signedTx_signaturePreimage
    (each : tx.inputs.length = inputs.length) (index : Nat) (scriptCode : Bytes) (hashType : Nat) :
    (signedTx crypto getPublicKey tx inputs).signaturePreimage index scriptCode hashType =
      tx.signaturePreimage index scriptCode hashType := by
  have same : ((signedTx crypto getPublicKey tx inputs).inputs.map fun input =>
      (input.outpoint, input.sequence)) = tx.inputs.map fun input =>
        (input.outpoint, input.sequence) := by
    unfold signedTx
    rw [List.map_map]
    calc _ = ((tx.inputs.zip inputs).zipIdx.map Prod.fst).map ((fun input : RawTxInput =>
          (input.outpoint, input.sequence)) ∘ Prod.fst) := by rw [List.map_map]; rfl
      _ = _ := by rw [List.zipIdx_map_fst, ← List.map_map, List.map_fst_zip (by omega)]
  have count : (signedTx crypto getPublicKey tx inputs).inputs.length = tx.inputs.length := by
    simpa using congrArg List.length same
  unfold ParsedTx.signaturePreimage
  rw [same, count]
  rfl

theorem signedTx_getElem? (each : tx.inputs.length = inputs.length)
    {index : Nat} {input : SigningInput} (found : inputs[index]? = some input) :
    ∃ sent, (signedTx crypto getPublicKey tx inputs).inputs[index]? = some sent ∧
      sent.scriptSig = scriptSigOf crypto getPublicKey tx input index := by
  obtain ⟨bound, rfl⟩ := List.getElem?_eq_some_iff.mp found
  refine ⟨{ tx.inputs[index] with
    scriptSig := scriptSigOf crypto getPublicKey tx inputs[index] index }, ?_, rfl⟩
  unfold signedTx
  simp [each, bound]

theorem covered_of_signRawTransaction {rawTx signed : Bytes}
    (legacy : ∀ input ∈ inputs, ∃ hash, input.scriptPubKey = p2pkhScript hash)
    (sent : signRawTransaction crypto getPublicKey rawTx inputs = some signed) :
    ∃ tx : ParsedTx, signed = buildRawTxHex tx ∧ tx.inputs.length = inputs.length ∧
      ∀ index input, inputs[index]? = some input → ∃ carried, tx.inputs[index]? = some carried ∧
        carried.scriptSig = buildP2PKHScriptSig (crypto.sign (crypto.hash256
          (tx.signaturePreimage index input.scriptPubKey input.sighashTypeOrAll))
          input.privateKey) input.sighashTypeOrAll (getPublicKey input.privateKey) := by
  unfold signRawTransaction at sent
  obtain ⟨tx, parsed, sent⟩ := bind_eq_some_iff.mp sent
  split at sent
  · cases sent
  · rename_i each
    rw [not_not] at each
    cases sent
    obtain ⟨inputCount, outputCount, short⟩ := parseRawTx_small parsed
    refine ⟨_, rfl, by simp [signedTx, each], ?_⟩
    intro index input found
    obtain ⟨carried, place, script⟩ := signedTx_getElem? crypto getPublicKey tx each found
    refine ⟨carried, place, ?_⟩
    obtain ⟨hash, code⟩ := legacy input (mem_of_getElem? found)
    have small : input.scriptPubKey.length ≤ 0xffffffff := by
      rw [code, length_p2pkhScript]
      decide
    rw [script, signedTx_signaturePreimage crypto getPublicKey tx each,
      ← sighashLegacyPreimage_eq inputCount outputCount short index small]
    rfl

end Signer

theorem built_of_buildP2PKHTx {options : PSBTBuildOptions} {rawTx : Bytes}
    (built : buildP2PKHTx crypto options = .ok rawTx) :
    ∃ (outputs : List TxOutput) (signed : List (Bytes × List Bytes)),
      List.Forall₂ (fun out result => buildOutput crypto out = .ok result) options.outputs outputs ∧
      List.Forall₂ (fun entry result => signInput crypto options.inputs outputs entry = .ok result)
        options.inputs.zipIdx signed ∧
      rawTx = serializeTx (effectiveInputs options) outputs (signed.map fst)
        (signed.map snd) options.locktime
        (options.inputs.any fun input => isSegwit input.scriptPubKey) := by
  unfold buildP2PKHTx at built
  obtain ⟨_, _, outputs, outputsBuilt, signed, inputsSigned, built⟩ := ok_bind₃ built
  exact ⟨outputs, signed, mapM_eq_ok.mp outputsBuilt, mapM_eq_ok.mp inputsSigned,
    (pure_eq_ok.mp built).symm⟩

theorem short_of_buildOutput {asked : List PSBTOutput}
    (built : List.Forall₂ (fun out result => buildOutput crypto out = .ok result) asked outputs) :
    ∀ out ∈ outputs, out.scriptPubKey.length ≤ 25 := by
  intro out member
  obtain ⟨_, _, each⟩ := exists_of_mem_right built member
  obtain ⟨script, scriptBuilt, each⟩ := bind_eq_ok.mp each
  rw [← pure_eq_ok.mp each]
  exact length_buildScriptFromAddress_le scriptBuilt

/-- Each legacy input of a built transaction carries a signature over the digest the
builder computed, which is the digest of the transaction that is sent exactly when the
options are covered.  The signer of raw transactions always signs the digest of the
transaction it returns. -/
theorem signatures_cover_iff (crypto : Crypto) (options : PSBTBuildOptions) (rawTx : Bytes)
    (built : buildP2PKHTx crypto options = .ok rawTx) :
    (∃ (outputs : List TxOutput) (signed : List (Bytes × List Bytes)),
      rawTx = serializeTx (effectiveInputs options) outputs (signed.map Prod.fst)
        (signed.map Prod.snd) options.locktime
        (options.inputs.any fun input => isSegwit input.scriptPubKey) ∧
      signed.length = options.inputs.length ∧
      ∀ index input, options.inputs[index]? = some input → isSegwit input.scriptPubKey = false →
        ∃ privateKey pubKey digested,
          signed[index]? = some (p2pkhScriptSig (crypto.sign (crypto.hash256 digested) privateKey)
            pubKey, []) ∧ digested = sighashP2PKHPreimage options.inputs outputs index
            (p2pkhScriptPubKey crypto pubKey) sighashAll ∧
          (digested = (sentTx options outputs (signed.map Prod.fst)).signaturePreimage index
            (p2pkhScriptPubKey crypto pubKey) sighashAll ↔ Covered options)) ∧
    ∀ (getPublicKey : Bytes → Bytes) (raw signedRaw : Bytes) (inputs : List Signer.SigningInput),
      (∀ input ∈ inputs, (∃ hash, input.scriptPubKey = p2pkhScript hash) ∧
        input.sighashTypeOrAll = sighashAll) →
      Signer.signRawTransaction crypto getPublicKey raw inputs = some signedRaw →
      ∃ tx : ParsedTx, signedRaw = Signer.buildRawTxHex tx ∧ tx.inputs.length = inputs.length ∧
        ∀ index input, inputs[index]? = some input → ∃ carried, tx.inputs[index]? = some carried ∧
          carried.scriptSig = Signer.buildP2PKHScriptSig (crypto.sign (crypto.hash256
            (tx.signaturePreimage index input.scriptPubKey sighashAll)) input.privateKey) sighashAll
            (getPublicKey input.privateKey) := by
  constructor
  · obtain ⟨outputs, signed, outputsBuilt, inputsSigned, rfl⟩ := built_of_buildP2PKHTx built
    have count : signed.length = options.inputs.length := by
      rw [← inputsSigned.length_eq, length_zipIdx]
    refine ⟨outputs, signed, rfl, count, ?_⟩
    intro index input found legacy
    obtain ⟨bound, rfl⟩ := List.getElem?_eq_some_iff.mp found
    have each := (List.forall₂_iff_get.mp inputsSigned).2 index (by simpa using bound)
      (count ▸ bound)
    rw [List.get_eq_getElem, List.getElem_zipIdx, zero_add] at each
    obtain ⟨privateKey, pubKey, carried⟩ := legacy_of_signInput each legacy
    refine ⟨privateKey, pubKey, _, ?_, rfl, ?_⟩
    · rw [getElem?_eq_getElem (count ▸ bound), ← carried, get_eq_getElem]
    · exact preimages_eq_iff options (by rw [length_map, count])
        outputsBuilt.length_eq.symm (short_of_buildOutput outputsBuilt) index
        (by unfold p2pkhScriptPubKey; rw [length_p2pkhScript]; decide) sighashAll
  · intro getPublicKey raw signedRaw inputs legacy sent
    obtain ⟨tx, returned, count, each⟩ := Signer.covered_of_signRawTransaction crypto getPublicKey
      (fun input member => (legacy input member).1) sent
    refine ⟨tx, returned, count, ?_⟩
    intro index input found
    obtain ⟨carried, place, script⟩ := each index input found
    rw [(legacy input (mem_of_getElem? found)).2] at script
    exact ⟨carried, place, script⟩

/-- Functions to run the wallet with: the hash is constant and one key is known. -/
def sampleCrypto : Crypto where
  sha256 _ := List.replicate 32 0
  ripemd160 _ := List.replicate 20 7
  derive _ := (some (List.replicate 32 1), some (0x02 :: List.replicate 32 5))
  sign digest _ := digest.take 70

/-- One coin of the wallet, spent with nothing said about its sequence number. -/
def sampleInput : PSBTInput :=
  ⟨List.replicate 32 9, 1, p2pkhScript (List.replicate 20 7), 100000, "m/0", none⟩

def sampleOptions (replaceable : Bool) : PSBTBuildOptions :=
  { inputs := [sampleInput], outputs := [⟨[], 50000⟩], replaceable := replaceable }

/-- Without a lock time and replacement the signature is over what is sent. -/
theorem signatures_cover_iff_final : ∃ rawTx,
    buildP2PKHTx sampleCrypto (sampleOptions false) = .ok rawTx ∧ Covered (sampleOptions false) ∧
    ∃ outputs signed pubKey,
      sighashP2PKHPreimage [sampleInput] outputs 0 (p2pkhScriptPubKey sampleCrypto pubKey)
        sighashAll = (sentTx (sampleOptions false) outputs signed).signaturePreimage 0
          (p2pkhScriptPubKey sampleCrypto pubKey) sighashAll := by
  have passes : (buildP2PKHTx sampleCrypto (sampleOptions false)).passed = true := by
    decide +kernel
  have covered : Covered (sampleOptions false) :=
    ⟨by decide, by decide, fun impossible => absurd impossible Bool.false_ne_true, rfl⟩
  obtain ⟨rawTx, built⟩ := passed_iff.mp passes
  obtain ⟨⟨outputs, signed, _, _, each⟩, _⟩ := signatures_cover_iff sampleCrypto
    (sampleOptions false) rawTx built
  obtain ⟨privateKey, pubKey, digested, _, rfl, iff⟩ := each 0 sampleInput rfl rfl
  exact ⟨rawTx, built, covered, outputs, _, pubKey, iff.mpr covered⟩

/-- A replaceable transaction is signed with one sequence number and sent with another. -/
theorem replaceable_is_not_covered :
    (buildP2PKHTx sampleCrypto (sampleOptions true)).passed = true ∧ ∀ pubKey : Bytes,
      sighashP2PKHPreimage [sampleInput] [⟨50000, []⟩] 0 (p2pkhScriptPubKey sampleCrypto pubKey)
        sighashAll ≠ (sentTx (sampleOptions true) [⟨50000, []⟩] [[]]).signaturePreimage 0
          (p2pkhScriptPubKey sampleCrypto pubKey) sighashAll := by
  refine ⟨by decide +kernel, fun pubKey same => ?_⟩
  have covered := (preimages_eq_iff (sampleOptions true) rfl rfl (by simp) 0
    (by unfold p2pkhScriptPubKey; rw [length_p2pkhScript]; decide) sighashAll).mp same
  exact absurd (covered.sequences rfl sampleInput mem_cons_self) (by decide)

/-- The options `buildRBFReplacement` builds with. -/
def replacementOptions (inputs : List PSBTInput) (outputs : List PSBTOutput) (newFeeRate : Int) :
    PSBTBuildOptions :=
  { inputs, outputs, feeRate := newFeeRate, replaceable := true }

def buildRBFReplacement (crypto : Crypto) (inputs : List PSBTInput) (outputs : List PSBTOutput)
    (newFeeRate : Int) : Check (Bytes × Bytes) :=
  buildAndSignOnly crypto (replacementOptions inputs outputs newFeeRate)

def paidFee (inputs : List PSBTInput) (outputs : List TxOutput) : Int :=
  (inputs.map PSBTInput.valueSat).sum - (outputs.map TxOutput.value).sum

theorem values_of_buildOutput {asked : List PSBTOutput}
    (built : List.Forall₂ (fun out result => buildOutput crypto out = .ok result) asked outputs) :
    outputs.map TxOutput.value = asked.map PSBTOutput.valueSat := by
  induction built with
  | nil => rfl
  | cons each _ ih =>
    obtain ⟨script, _, each⟩ := bind_eq_ok.mp each
    rw [map_cons, map_cons, ih, ← pure_eq_ok.mp each]

/-- The replacement pays the fee of the original whatever the rates are.  Every input
signals, and the signatures are over what is sent exactly when the inputs had the
sequence number of a replaceable transaction before. -/
theorem replacement_never_raises_fee (crypto : Crypto) (original : PSBTBuildOptions)
    (newFeeRate : Int) {rawTx txid rawTx' : Bytes}
    (built : buildP2PKHTx crypto original = .ok rawTx)
    (replaced : buildRBFReplacement crypto original.inputs original.outputs newFeeRate =
      .ok (txid, rawTx')) :
    ∃ (outputs outputs' : List TxOutput) (signed signed' : List (Bytes × List Bytes)),
      let options := replacementOptions original.inputs original.outputs newFeeRate
      rawTx = serializeTx (effectiveInputs original) outputs (signed.map fst)
        (signed.map snd) original.locktime
        (original.inputs.any fun input => isSegwit input.scriptPubKey) ∧
      rawTx' = serializeTx (effectiveInputs options) outputs' (signed'.map fst)
        (signed'.map snd) 0
        (original.inputs.any fun input => isSegwit input.scriptPubKey) ∧
      paidFee original.inputs outputs' = paidFee original.inputs outputs ∧
      (∀ input ∈ effectiveInputs options, input.sequence = some 0xfffffffd) ∧
      ∀ index pubKey,
        sighashP2PKHPreimage original.inputs outputs' index (p2pkhScriptPubKey crypto pubKey)
            sighashAll = (sentTx options outputs' (signed'.map fst)).signaturePreimage index
              (p2pkhScriptPubKey crypto pubKey) sighashAll ↔
          original.inputs.length ≤ 0xffff ∧ original.outputs.length ≤ 0xffff ∧
            ∀ input ∈ original.inputs, input.sequenceOrFinal % 2 ^ 32 = 0xfffffffd := by
  obtain ⟨rawTx'', rebuilt, replaced⟩ := bind_eq_ok.mp replaced
  obtain ⟨_, rfl⟩ := Prod.mk.inj (pure_eq_ok.mp replaced)
  obtain ⟨outputs, signed, outputsBuilt, _, sent⟩ := built_of_buildP2PKHTx built
  obtain ⟨outputs', signed', outputsBuilt', inputsSigned', sent'⟩ := built_of_buildP2PKHTx rebuilt
  refine ⟨outputs, outputs', signed, signed', sent, sent', ?_, ?_, fun index pubKey => ?_⟩
  · rw [paidFee, paidFee, values_of_buildOutput outputsBuilt, values_of_buildOutput outputsBuilt']
    rfl
  · intro input member
    obtain ⟨_, _, rfl⟩ := mem_map.mp member
    rfl
  · have count : signed'.length = original.inputs.length := by
      rw [← inputsSigned'.length_eq, length_zipIdx]
      rfl
    refine (preimages_eq_iff (replacementOptions original.inputs original.outputs newFeeRate)
      (by rw [length_map, count]; rfl) outputsBuilt'.length_eq.symm
      (short_of_buildOutput outputsBuilt') index
      (by unfold p2pkhScriptPubKey; rw [length_p2pkhScript]; decide) sighashAll).trans ?_
    exact ⟨fun covered => ⟨covered.inputs, covered.outputs, covered.sequences rfl⟩,
      fun small => ⟨small.1, small.2.1, fun _ => small.2.2, rfl⟩⟩

theorem replacement_never_raises_fee_sample : ∃ rawTx txid rawTx',
    buildP2PKHTx sampleCrypto (sampleOptions false) = .ok rawTx ∧
    buildRBFReplacement sampleCrypto [sampleInput] [⟨[], 50000⟩] 5 = .ok (txid, rawTx') ∧
    ∃ outputs outputs', paidFee [sampleInput] outputs' = paidFee [sampleInput] outputs := by
  obtain ⟨rawTx, built⟩ := passed_iff.mp (show (buildP2PKHTx sampleCrypto
    (sampleOptions false)).passed = true by decide +kernel)
  obtain ⟨⟨txid, rawTx'⟩, replaced⟩ := passed_iff.mp (show (buildRBFReplacement sampleCrypto
    [sampleInput] [⟨[], 50000⟩] 5).passed = true by decide +kernel)
  obtain ⟨outputs, outputs', _, _, _, _, same, _⟩ :=
    replacement_never_raises_fee sampleCrypto (sampleOptions false) 5 built replaced
  exact ⟨rawTx, txid, rawTx', built, replaced, outputs, outputs', same⟩

/-- At five times the rate the replacement has the same output, and its signature is not
over the sequence number it sends. -/
theorem replacement_keeps_the_fee :
    (buildP2PKHTx sampleCrypto (sampleOptions false)).passed = true ∧
    (buildRBFReplacement sampleCrypto [sampleInput] [⟨[], 50000⟩] 5).passed = true ∧
    ∀ outputs outputs', List.Forall₂ (fun out result => buildOutput sampleCrypto out = .ok result)
        [⟨[], 50000⟩] outputs →
      List.Forall₂ (fun out result => buildOutput sampleCrypto out = .ok result)
        [⟨[], 50000⟩] outputs' →
      ¬ paidFee [sampleInput] outputs < paidFee [sampleInput] outputs' := by
  refine ⟨by decide +kernel, by decide +kernel, fun outputs outputs' built built' => ?_⟩
  rw [paidFee, paidFee, values_of_buildOutput built, values_of_buildOutput built']
  exact lt_irrefl _

end Phicoin.Web
