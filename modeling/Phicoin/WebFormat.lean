import Phicoin.WebSignatures

/-! # Well-formed transactions of the web wallet

The daemon reads a transaction in one of two formats: without witnesses, or with a
marker and a flag right after the version.  The builder writes the marker after the
inputs.  Its transactions are read back as they were meant exactly when none of the
inputs is one of SegWit and the outputs go to addresses it knows. -/

namespace Phicoin.Web

open ByteReader Check TwosComplement List Prod

/-- `MAX_SIZE` of a vector that is read. -/
def maxVectorSize : Nat := 0x02000000

def readInput : Reader RawTxInput := do
  let prevTxId ← readBytes 32
  let vout ← readUnsigned 4
  let scriptSig ← readString maxVectorSize
  let sequence ← readUnsigned 4
  return ⟨prevTxId, vout, scriptSig, sequence⟩

def readOutput : Reader TxOutput := do
  let value ← readSigned 8
  let scriptPubKey ← readString maxVectorSize
  return ⟨value, scriptPubKey⟩

def readStack : Reader (List Bytes) := readList maxVectorSize (readString maxVectorSize)

/-- `UnserializeTransaction` with witnesses allowed: the transaction and the witness of
each input.  Flags other than that of witnesses are refused. -/
def unserializeTransaction : Reader (ParsedTx × List (List Bytes)) := do
  let version ← readSigned 4
  let vin ← readList maxVectorSize readInput
  if vin = [] then
    let flags ← readUnsigned 1
    if flags = 0 then
      let locktime ← readUnsigned 4
      return (⟨version, [], [], locktime⟩, [])
    else if flags = 1 then
      let vin ← readList maxVectorSize readInput
      let vout ← readList maxVectorSize readOutput
      let witnesses ← readMany readStack vin.length
      let locktime ← readUnsigned 4
      return (⟨version, vin, vout, locktime⟩, witnesses)
    else failure
  else
    let vout ← readList maxVectorSize readOutput
    let locktime ← readUnsigned 4
    return (⟨version, vin, vout, locktime⟩, vin.map fun _ => [])

def decodeTx (bytes : Bytes) : Option (ParsedTx × List (List Bytes)) :=
  match unserializeTransaction bytes with
  | some (tx, []) => some tx
  | _ => none

def RawTxInput.serialized (input : RawTxInput) : Bytes :=
  input.prevTxId ++ leBytes 4 input.vout ++ writeString input.scriptSig ++ leBytes 4 input.sequence

def ParsedTx.serialized (tx : ParsedTx) : Bytes :=
  signedBytes 4 tx.version ++ (writeList RawTxInput.serialized tx.inputs ++
    (writeList TxOutput.serialized tx.outputs ++ leBytes 4 tx.locktime))

def stackBytes (stack : List Bytes) : Bytes := writeList writeString stack

def ParsedTx.extended (tx : ParsedTx) (witnesses : List (List Bytes)) : Bytes :=
  signedBytes 4 tx.version ++ ([0x00, 0x01] ++ (writeList RawTxInput.serialized tx.inputs ++
    (writeList TxOutput.serialized tx.outputs ++ (witnesses.flatMap stackBytes ++
      leBytes 4 tx.locktime))))

/-- What `SignatureHash` hashes for an input of SegWit and `SIGHASH_ALL`. -/
def ParsedTx.witnessPreimage (crypto : Crypto) (tx : ParsedTx) (nIn : Nat) (scriptCode : Bytes)
    (amount : Int) (nHashType : Nat) : Bytes :=
  signedBytes 4 tx.version ++ crypto.hash256 (tx.inputs.flatMap RawTxInput.outpoint) ++
    crypto.hash256 (tx.inputs.flatMap fun input => leBytes 4 input.sequence) ++
    ((tx.inputs[nIn]?.map RawTxInput.outpoint).getD []) ++ writeString scriptCode ++
    signedBytes 8 amount ++ ((tx.inputs[nIn]?.map fun input => leBytes 4 input.sequence).getD []) ++
    crypto.hash256 (tx.outputs.flatMap TxOutput.serialized) ++ leBytes 4 tx.locktime ++
    leBytes 4 nHashType

def RawTxInput.Typed (input : RawTxInput) : Prop :=
  input.prevTxId.length = 32 ∧ input.vout < 2 ^ 32 ∧ input.sequence < 2 ^ 32

variable {stream rest : Bytes}

theorem readInput_eq_some {input : RawTxInput} (read : readInput stream = some (input, rest)) :
    stream = input.serialized ++ rest ∧ input.Typed := by
  obtain ⟨prevTxId, _, first, read⟩ := run_bind.mp read
  obtain ⟨vout, _, second, read⟩ := run_bind.mp read
  obtain ⟨scriptSig, _, third, read⟩ := run_bind.mp read
  obtain ⟨sequence, _, fourth, read⟩ := run_bind.mp read
  obtain ⟨rfl, rfl⟩ := run_pure.mp read
  obtain ⟨length, rfl⟩ := readBytes_eq_some first
  obtain ⟨_, scriptEq⟩ := readString_eq_some third
  refine ⟨?_, length, readUnsigned_lt second, readUnsigned_lt fourth⟩
  rw [readUnsigned_eq_some second, scriptEq, readUnsigned_eq_some fourth]
  simp only [RawTxInput.serialized, append_assoc]

theorem readInput_serialized {input : RawTxInput} (typed : input.Typed)
    (short : input.scriptSig.length ≤ maxVectorSize) (rest : Bytes) :
    readInput (input.serialized ++ rest) = some (input, rest) := by
  obtain ⟨length, vout, sequence⟩ := typed
  unfold RawTxInput.serialized
  simp only [append_assoc]
  refine run_bind.mpr ⟨input.prevTxId, _, length ▸ readBytes_append input.prevTxId, ?_⟩
  refine run_bind.mpr ⟨input.vout, _, readUnsigned_leBytes vout, ?_⟩
  refine run_bind.mpr ⟨input.scriptSig, _, readString_writeString short ?_, ?_⟩
  · unfold maxVectorSize at short
    omega
  · exact run_bind.mpr ⟨input.sequence, rest, readUnsigned_leBytes sequence,
      run_pure.mpr ⟨rfl, rfl⟩⟩

theorem readOutput_eq_some {out : TxOutput} (read : readOutput stream = some (out, rest)) :
    stream = out.serialized ++ rest ∧ Fits 64 out.value := by
  obtain ⟨value, _, first, read⟩ := run_bind.mp read
  obtain ⟨scriptPubKey, _, second, read⟩ := run_bind.mp read
  obtain ⟨rfl, rfl⟩ := run_pure.mp read
  obtain ⟨_, scriptEq⟩ := readString_eq_some second
  refine ⟨?_, readSigned_fits first⟩
  rw [readSigned_eq_some first, scriptEq, TxOutput.serialized, append_assoc]

theorem readOutput_serialized {out : TxOutput} (fits : Fits 64 out.value)
    (short : out.scriptPubKey.length ≤ maxVectorSize) (rest : Bytes) :
    readOutput (out.serialized ++ rest) = some (out, rest) := by
  unfold TxOutput.serialized
  rw [append_assoc]
  refine run_bind.mpr ⟨out.value, _, readSigned_signedBytes fits, ?_⟩
  refine run_bind.mpr ⟨out.scriptPubKey, rest, readString_writeString short ?_,
    run_pure.mpr ⟨rfl, rfl⟩⟩
  unfold maxVectorSize at short
  omega

theorem readStack_eq_some {stack : List Bytes}
    (read : readStack stream = some (stack, rest)) : stream = stackBytes stack ++ rest ∧ True := by
  have item : ∀ {stream text rest : Bytes}, readString maxVectorSize stream = some (text, rest) →
      stream = writeString text ++ rest ∧ True :=
    fun itemRead => ⟨(readString_eq_some itemRead).2, trivial⟩
  exact ⟨(readList_eq_some item read).2.1, trivial⟩

structure ParsedTx.Typed (tx : ParsedTx) : Prop where
  inputs : ∀ input ∈ tx.inputs, input.Typed
  outputs : ∀ out ∈ tx.outputs, Fits 64 out.value
  locktime : tx.locktime < 2 ^ 32

theorem unserializeTransaction_eq_some {tx : ParsedTx} {witnesses : List (List Bytes)}
    (read : unserializeTransaction stream = some ((tx, witnesses), rest)) :
    tx.Typed ∧ tx.inputs.length ≤ maxVectorSize ∧ tx.outputs.length ≤ maxVectorSize ∧
      ((stream = tx.serialized ++ rest ∧ witnesses = (tx.inputs.map fun _ => []) ∧
          (tx.inputs ≠ [] ∨ tx.outputs = [])) ∨ stream = tx.extended witnesses ++ rest) := by
  unfold unserializeTransaction at read
  obtain ⟨version, _, versionRead, read⟩ := run_bind.mp read
  obtain ⟨vin, _, vinRead, read⟩ := run_bind.mp read
  obtain ⟨vinSize, vinEq, vinTyped⟩ := readList_eq_some readInput_eq_some vinRead
  split at read
  · rename_i none
    subst none
    obtain ⟨flags, _, flagsRead, read⟩ := run_bind.mp read
    have flagsEq := readUnsigned_eq_some flagsRead
    split at read
    · rename_i zero
      subst zero
      obtain ⟨locktime, _, lockRead, read⟩ := run_bind.mp read
      cases read
      refine ⟨⟨by simp, by simp, readUnsigned_lt lockRead⟩, Nat.zero_le _, Nat.zero_le _,
        .inl ⟨?_, rfl, .inr rfl⟩⟩
      rw [readSigned_eq_some versionRead, vinEq, flagsEq, readUnsigned_eq_some lockRead]
      simp only [ParsedTx.serialized, append_assoc]
      rfl
    · split at read
      · rename_i one
        subst one
        obtain ⟨vin, _, vinRead, read⟩ := run_bind.mp read
        obtain ⟨vout, _, voutRead, read⟩ := run_bind.mp read
        obtain ⟨carried, _, carriedRead, read⟩ := run_bind.mp read
        obtain ⟨locktime, _, lockRead, read⟩ := run_bind.mp read
        cases read
        obtain ⟨size, inputsEq, typed⟩ := readList_eq_some readInput_eq_some vinRead
        obtain ⟨outSize, outputsEq, fits⟩ := readList_eq_some readOutput_eq_some voutRead
        obtain ⟨_, witnessEq, _⟩ := readMany_eq_some readStack_eq_some carriedRead
        refine ⟨⟨typed, fits, readUnsigned_lt lockRead⟩, size, outSize, .inr ?_⟩
        rw [readSigned_eq_some versionRead, vinEq, flagsEq, inputsEq, outputsEq, witnessEq,
          readUnsigned_eq_some lockRead]
        simp only [ParsedTx.extended, append_assoc]
        rfl
      · cases read
  · rename_i some_input
    obtain ⟨vout, _, voutRead, read⟩ := run_bind.mp read
    obtain ⟨locktime, _, lockRead, read⟩ := run_bind.mp read
    cases read
    obtain ⟨outSize, outputsEq, fits⟩ := readList_eq_some readOutput_eq_some voutRead
    refine ⟨⟨vinTyped, fits, readUnsigned_lt lockRead⟩, vinSize, outSize,
      .inl ⟨?_, rfl, .inl some_input⟩⟩
    rw [readSigned_eq_some versionRead, vinEq, outputsEq, readUnsigned_eq_some lockRead]
    simp only [ParsedTx.serialized, append_assoc]

theorem decodeTx_serialized {tx : ParsedTx} (typed : tx.Typed) (version : Fits 32 tx.version)
    (inputs : tx.inputs.length ≤ maxVectorSize) (outputs : tx.outputs.length ≤ maxVectorSize)
    (scriptSigs : ∀ input ∈ tx.inputs, input.scriptSig.length ≤ maxVectorSize)
    (scripts : ∀ out ∈ tx.outputs, out.scriptPubKey.length ≤ maxVectorSize)
    (shape : tx.inputs ≠ [] ∨ tx.outputs = []) :
    decodeTx tx.serialized = some (tx, tx.inputs.map fun _ => []) := by
  have small {size : Nat} (le : size ≤ maxVectorSize) : size < 2 ^ 64 := by
    unfold maxVectorSize at le
    omega
  have vinRead := readList_writeList inputs (small inputs) fun input member rest =>
    readInput_serialized (typed.inputs input member) (scriptSigs input member) rest
  have voutRead := readList_writeList outputs (small outputs) fun out member rest =>
    readOutput_serialized (typed.outputs out member) (scripts out member) rest
  have lockRead : readUnsigned 4 (leBytes 4 tx.locktime ++ []) = some (tx.locktime, []) :=
    readUnsigned_leBytes typed.locktime
  rw [append_nil] at lockRead
  have read : unserializeTransaction tx.serialized =
      some ((tx, tx.inputs.map fun _ => []), []) := by
    refine run_bind.mpr ⟨tx.version, _, readSigned_signedBytes version, ?_⟩
    refine run_bind.mpr ⟨tx.inputs, _, vinRead _, ?_⟩
    split
    · rename_i none
      rw [shape.resolve_left (not_not.mpr none), none]
      refine run_bind.mpr ⟨0, leBytes 4 tx.locktime, rfl, ?_⟩
      refine run_bind.mpr ⟨tx.locktime, [], lockRead, run_pure.mpr ⟨?_, rfl⟩⟩
      obtain ⟨version, vin, vout, locktime⟩ := tx
      obtain rfl : vin = [] := none
      obtain rfl : vout = [] := shape.resolve_left (not_not.mpr rfl)
      rfl
    · refine run_bind.mpr ⟨tx.outputs, _, voutRead _, ?_⟩
      exact run_bind.mpr ⟨tx.locktime, [], lockRead, run_pure.mpr ⟨rfl, rfl⟩⟩
  unfold decodeTx
  rw [read]

/-- The script of a destination of the daemon: the version of the address is 56 for a
public key and 16 for a script. -/
def destinationScript (crypto : Crypto) (address : Bytes) : Option Bytes :=
  match base58Decode address with
  | .error _ => none
  | .ok decoded =>
    if decoded.length = 25 ∧ (crypto.hash256 (decoded.take 21)).take 4 = decoded.drop 21 then
      if decoded.head? = some 56 then some (p2pkhScript ((decoded.take 21).drop 1))
      else if decoded.head? = some 16 then some (p2shScript ((decoded.take 21).drop 1))
      else none
    else none

def wantedTx (options : PSBTBuildOptions) (outputs : List TxOutput) (scriptSigs : List Bytes) :
    ParsedTx where
  version := 2
  inputs := (options.inputs.zip scriptSigs).map fun entry =>
    ⟨entry.1.txid.reverse, entry.1.vout, entry.2, sentSequence options entry.1⟩
  outputs := outputs
  locktime := options.locktime

def isNested (scriptPubKey : Bytes) : Bool := [0xa9, 0x14].isPrefixOf scriptPubKey

def redeemPush (crypto : Crypto) (pubKey : Bytes) : Bytes :=
  writeString ([0x00, 0x14] ++ crypto.hash160 pubKey)

/-- The transaction is read as it was meant, pays the addresses it was asked to pay, has
digests of the format for SegWit inputs, and its id is the hash without witnesses. -/
structure WellFormed (crypto : Crypto) (options : PSBTBuildOptions) (txid rawTx : Bytes)
    (outputs : List TxOutput) (signed : List (Bytes × List Bytes)) : Prop where
  decodes : decodeTx rawTx =
    some (wantedTx options outputs (signed.map Prod.fst), signed.map Prod.snd)
  scripts : List.Forall₂ (fun wanted out => out.value = wanted.valueSat ∧ out.scriptPubKey ≠ [] ∧
    destinationScript crypto wanted.address = some out.scriptPubKey) options.outputs outputs
  segwit : ∀ index input, options.inputs[index]? = some input →
    isSegwit input.scriptPubKey = true → ∃ scriptSig signature pubKey,
      signed[index]? = some (scriptSig, [signature, pubKey]) ∧
      scriptSig = (if isNested input.scriptPubKey then redeemPush crypto pubKey else []) ∧
      sighashBIP143Preimage crypto options.inputs outputs index input
        (segwitScriptCode crypto pubKey) input.valueSat =
      (wantedTx options outputs (signed.map Prod.fst)).witnessPreimage crypto index
        (p2pkhScriptPubKey crypto pubKey) input.valueSat sighashAll
  id : txid = (crypto.hash256 (wantedTx options outputs (signed.map Prod.fst)).serialized).reverse

/-- An address the builder knows: of 25 bytes, with the letter and the version of a
public key or of a script. -/
def KnownAddress (address : Bytes) : Prop :=
  ∃ decoded, base58Decode address = .ok decoded ∧ decoded.length = 25 ∧
    (((ascii "P").isPrefixOf address = true ∧ decoded.head? = some 56) ∨
      ((ascii "H").isPrefixOf address = true ∧ decoded.head? = some 16))

structure Buildable (options : PSBTBuildOptions) : Prop where
  legacy : ∀ input ∈ options.inputs, isSegwit input.scriptPubKey = false
  inputs : options.inputs.length ≤ 0xffff
  outputs : options.outputs.length ≤ 0xffff
  shape : options.inputs ≠ [] ∨ options.outputs = []
  typed : ∀ input ∈ options.inputs, input.txid.length = 32 ∧ input.vout < 2 ^ 32 ∧
    sentSequence options input < 2 ^ 32
  values : ∀ out ∈ options.outputs, Fits 64 out.valueSat
  addresses : ∀ out ∈ options.outputs, KnownAddress out.address
  locktime : options.locktime < 2 ^ 32

variable {crypto : Crypto} {address : Bytes}

theorem known_of_destination {script : Bytes}
    (built : buildScriptFromAddress crypto address = .ok script) (some_script : script ≠ [])
    (destination : destinationScript crypto address = some script) : KnownAddress address := by
  unfold destinationScript at destination
  split at destination
  · cases destination
  rename_i decoded decodes
  split_ifs at destination with checked key hash
  · refine ⟨decoded, decodes, checked.1, .inl ⟨?_, key⟩⟩
    have size := congrArg List.length (Option.some.inj destination)
    rw [length_p2pkhScript] at size
    unfold buildScriptFromAddress at built
    split at built
    · assumption
    · split at built
      · obtain ⟨payload, _, _, _, built⟩ := ok_bind₂ built
        rw [← pure_eq_ok.mp built, length_p2shScript] at size
        omega
      · exact absurd (pure_eq_ok.mp built).symm some_script
  · refine ⟨decoded, decodes, checked.1, .inr ⟨?_, hash⟩⟩
    have size := congrArg List.length (Option.some.inj destination)
    rw [length_p2shScript] at size
    unfold buildScriptFromAddress at built
    split at built
    · obtain ⟨payload, _, _, _, built⟩ := ok_bind₂ built
      rw [← pure_eq_ok.mp built, length_p2pkhScript] at size
      omega
    · split at built
      · assumption
      · exact absurd (pure_eq_ok.mp built).symm some_script

theorem decodeBase58Check_eq {decoded hash : Bytes}
    (decodes : base58Decode address = .ok decoded) (length : decoded.length = 25)
    (checked : decodeBase58Check crypto address = .ok hash) :
    (crypto.hash256 (decoded.take 21)).take 4 = decoded.drop 21 ∧
      hash = (decoded.take 21).drop 1 := by
  unfold decodeBase58Check at checked
  obtain ⟨bytes, same, checked⟩ := bind_eq_ok.mp checked
  obtain rfl : decoded = bytes := Except.ok.inj (decodes.symm.trans same)
  obtain ⟨_, _, checked⟩ := bind_eq_ok.mp checked
  simp only [length] at checked
  obtain ⟨_, sum, checked⟩ := bind_eq_ok.mp checked
  rw [require_eq_ok, decide_eq_true_eq] at sum
  exact ⟨sum, (pure_eq_ok.mp checked).symm⟩

theorem destination_of_known {script : Bytes}
    (built : buildScriptFromAddress crypto address = .ok script) (known : KnownAddress address) :
    script ≠ [] ∧ destinationScript crypto address = some script := by
  obtain ⟨decoded, decodes, length, known⟩ := known
  unfold buildScriptFromAddress at built
  unfold destinationScript
  rw [decodes]
  rcases known with ⟨letter, version⟩ | ⟨letter, version⟩
  · rw [if_pos letter] at built
    obtain ⟨hash, checked, _, _, built⟩ := ok_bind₂ built
    obtain ⟨sum, rfl⟩ := decodeBase58Check_eq decodes length checked
    rw [← pure_eq_ok.mp built]
    exact ⟨by simp [p2pkhScript], by simp only; rw [if_pos ⟨length, sum⟩, if_pos version]⟩
  · have other : ¬ (ascii "P").isPrefixOf address = true := by
      intro isKey
      rw [List.isPrefixOf_iff_prefix] at letter isKey
      obtain ⟨rest, rfl⟩ := letter
      obtain ⟨rest', same⟩ := isKey
      exact absurd (cons.inj same).1 (by decide)
    rw [if_neg other, if_pos letter] at built
    obtain ⟨hash, checked, _, _, built⟩ := ok_bind₂ built
    obtain ⟨sum, rfl⟩ := decodeBase58Check_eq decodes length checked
    rw [← pure_eq_ok.mp built]
    refine ⟨by simp [p2shScript], ?_⟩
    simp only
    rw [if_pos ⟨length, sum⟩, version, if_neg (by decide), if_pos rfl]

theorem length_compressPublicKey {pubKey compressed : Bytes}
    (done : compressPublicKey pubKey = .ok compressed) : compressed.length = 33 := by
  unfold compressPublicKey at done
  split at done
  · rename_i length
    rw [← pure_eq_ok.mp done, length]
  · obtain ⟨_, length, done⟩ := bind_eq_ok.mp done
    rw [require_eq_ok, decide_eq_true_eq] at length
    rw [← pure_eq_ok.mp done]
    simp [length]

theorem length_p2pkhScriptSig_le {signature pubKey : Bytes} (short : signature.length ≤ 72)
    (key : pubKey.length = 33) : (p2pkhScriptSig signature pubKey).length ≤ 108 := by
  have one {size : Nat} (small : size < 0xfd) : (writeVarInt size).length = 1 := by
    rw [writeVarInt, if_pos small, length_leBytes]
  unfold p2pkhScriptSig
  simp only [length_append, length_singleton]
  rw [one (by omega), one (by omega)]
  omega

theorem signInput_shape (signatures : ∀ digest key,
      (crypto.sign digest key).length ≤ 72) {inputs : List PSBTInput} {outputs : List TxOutput}
    {entry : PSBTInput × Nat} {result : Bytes × List Bytes}
    (signed : signInput crypto inputs outputs entry = .ok result) :
    result.1.length ≤ 0xffff ∧ (result.2 = [] ↔ isSegwit entry.1.scriptPubKey = false) := by
  unfold signInput at signed
  obtain ⟨privateKey, _, publicKey, _, compressedKey, compressed, signed⟩ := ok_bind₃ signed
  rw [← pure_eq_ok.mp signed]
  split
  · rename_i segwit
    simp [segwit]
  · rename_i legacy
    have length := length_p2pkhScriptSig_le (signatures (inputDigest crypto inputs outputs entry.2
      entry.1 compressedKey) (privateKey.take 32)) (length_compressPublicKey compressed)
    exact ⟨length.trans (by decide), by simpa using legacy⟩

section

variable {options : PSBTBuildOptions} {outputs : List TxOutput} {scriptSigs : List Bytes}

theorem serializeTx_legacy (witnessStacks : List (List Bytes))
    (scripts : ∀ script ∈ scriptSigs, script.length ≤ 0xffff)
    (short : ∀ out ∈ outputs, out.scriptPubKey.length ≤ 25) :
    serializeTx (effectiveInputs options) outputs scriptSigs witnessStacks options.locktime false =
      signedBytes 4 2 ++ (writeVarInt options.inputs.length ++
        ((sentTx options outputs scriptSigs).inputs.flatMap RawTxInput.serialized ++
          (writeVarInt outputs.length ++ (outputs.flatMap TxOutput.serialized ++
            leBytes 4 options.locktime)))) := by
  have inputs : ((effectiveInputs options).zip scriptSigs).flatMap (fun entry =>
      outpointBytes entry.1 ++ writeVarInt entry.2.length ++ entry.2 ++
        leBytes 4 entry.1.sequenceOrFinal) =
      (sentTx options outputs scriptSigs).inputs.flatMap RawTxInput.serialized := by
    unfold sentTx
    rw [flatMap_map]
    refine flatMap_congr fun entry member => ?_
    have small := scripts entry.2 (of_mem_zip member).2
    rw [writeVarInt_eq small]
    simp only [RawTxInput.serialized, outpointBytes, writeString, append_assoc]
  have count : (effectiveInputs options).length = options.inputs.length := by
    unfold effectiveInputs
    rw [length_map]
  unfold serializeTx
  rw [inputs, count, flatMap_bytes_eq short]
  simp only [append_assoc, Bool.false_eq_true, if_false, nil_append]

theorem reversed_eq {txid : Bytes} (length : txid.length = 32) : reversed txid = txid.reverse := by
  refine ext_getElem (by simp [reversed, length]) fun j left right => ?_
  have bound : j < 32 := by simpa [reversed] using left
  simp only [reversed, getElem_map, getElem_range, getElem_reverse, length]
  rw [getD_eq_getElem?_getD, getElem?_eq_getElem (by omega)]
  rfl

theorem sentTx_eq_wantedTx (ids : ∀ input ∈ options.inputs, input.txid.length = 32) :
    sentTx options outputs scriptSigs = wantedTx options outputs scriptSigs := by
  unfold sentTx wantedTx effectiveInputs
  congr 1
  rw [List.zip_map_left, List.map_map]
  refine List.map_congr_left fun entry member => ?_
  have length := ids entry.1 (List.of_mem_zip member).1
  simp only [Function.comp, Prod.map_fst, Prod.map_snd, id_eq, reversed_eq length]
  rfl

theorem head_writeVarInt {size : Nat} {tail : Bytes}
    (same : writeVarInt size ++ tail = 0 :: rest) : size = 0 := by
  unfold writeVarInt at same
  split_ifs at same with one two
  · have head := (cons.inj same).1
    have value := congrArg UInt8.toNat head
    simp at value
    omega
  · exact absurd (cons.inj same).1 (by decide)
  · exact absurd (cons.inj same).1 (by decide)

theorem length_writeVarInt {size : Nat} (word : size ≤ 0xffffffff) : (writeVarInt size).length =
      (writeCompactSize size).length + if size ≤ 0xffff then 0 else 4 := by
  unfold writeVarInt writeCompactSize
  split_ifs <;> simp [length_leBytes]
  omega

end

section

variable {crypto : Crypto} {options : PSBTBuildOptions} {outputs : List TxOutput}
  {signed : List (Bytes × List Bytes)}

structure Parts (crypto : Crypto) (options : PSBTBuildOptions) (outputs : List TxOutput)
    (signed : List (Bytes × List Bytes)) : Prop where
  built : List.Forall₂ (fun out result => buildOutput crypto out = .ok result) options.outputs
    outputs
  signed : List.Forall₂ (fun input result => result.1.length ≤ 0xffff ∧
    (result.2 = [] ↔ isSegwit input.scriptPubKey = false)) options.inputs signed

namespace Parts

variable (parts : Parts crypto options outputs signed)

include parts

theorem count : (signed.map fst).length = options.inputs.length := by
  rw [length_map, parts.signed.length_eq]

theorem scripts : ∀ script ∈ signed.map fst, script.length ≤ 0xffff := by
  intro script member
  obtain ⟨result, inSigned, rfl⟩ := mem_map.mp member
  obtain ⟨_, _, shape⟩ := exists_of_mem_right parts.signed inSigned
  exact shape.1

theorem legacy_iff : signed.map snd = (options.inputs.map fun _ => []) ↔
    ∀ input ∈ options.inputs, isSegwit input.scriptPubKey = false := by
  have shape := parts.signed
  clear parts
  generalize options.inputs = inputs at shape
  induction shape with
  | nil => simp
  | cons first _ ih =>
    rw [map_cons, map_cons, List.cons.injEq, forall_mem_cons]
    exact and_congr first.2 ih

theorem inputs_length : (wantedTx options outputs (signed.map fst)).inputs.length =
    options.inputs.length := by
  simp [wantedTx, parts.signed.length_eq]

theorem inputs_typed_iff : (∀ input ∈ (wantedTx options outputs (signed.map fst)).inputs,
      input.Typed) ↔ ∀ input ∈ options.inputs, input.txid.length = 32 ∧ input.vout < 2 ^ 32 ∧
      sentSequence options input < 2 ^ 32 := by
  have firsts : (options.inputs.zip (signed.map fst)).map fst = options.inputs :=
    map_fst_zip (by rw [parts.count])
  unfold wantedTx RawTxInput.Typed
  rw [forall_mem_map]
  simp only [length_reverse]
  constructor
  · intro typed input member
    rw [← firsts] at member
    obtain ⟨entry, inZip, rfl⟩ := mem_map.mp member
    exact typed entry inZip
  · intro typed entry inZip
    exact typed entry.1 (of_mem_zip inZip).1

theorem serialized_iff (ids : ∀ input ∈ options.inputs, input.txid.length = 32) :
    serializeTx (effectiveInputs options) outputs (signed.map fst) (signed.map snd)
        options.locktime false = (wantedTx options outputs (signed.map fst)).serialized ↔
      options.inputs.length ≤ 0xffff ∧ outputs.length ≤ 0xffff := by
  rw [serializeTx_legacy _ parts.scripts (short_of_buildOutput parts.built),
    sentTx_eq_wantedTx ids]
  unfold ParsedTx.serialized writeList
  rw [parts.inputs_length]
  simp only [append_assoc]
  generalize (wantedTx options outputs (signed.map fst)).inputs.flatMap
    RawTxInput.serialized = inputBytes
  change signedBytes 4 2 ++ (_ ++ (_ ++ (_ ++ (outputs.flatMap TxOutput.serialized ++ _)))) =
    signedBytes 4 2 ++ (_ ++ (_ ++ (writeCompactSize outputs.length ++
      (outputs.flatMap TxOutput.serialized ++ leBytes 4 options.locktime)))) ↔ _
  rw [append_cancel_left_eq]
  constructor
  · intro same
    have lengths := congrArg List.length same
    have inputCount := length_writeCompactSize_le_writeVarInt options.inputs.length
    have outputCount := length_writeCompactSize_le_writeVarInt outputs.length
    simp only [length_append] at lengths
    obtain ⟨inputsEq, same⟩ := append_inj same (by omega)
    rw [append_cancel_left_eq] at same
    obtain ⟨outputsEq, _⟩ := append_inj same (by omega)
    exact ⟨(writeVarInt_eq_iff _).mp inputsEq, (writeVarInt_eq_iff _).mp outputsEq⟩
  · rintro ⟨inputs, outputs⟩
    rw [writeVarInt_eq inputs, writeVarInt_eq outputs]

theorem buildable_of_decodes {rawTx : Bytes}
    (written : rawTx = serializeTx (effectiveInputs options) outputs (signed.map fst)
      (signed.map snd) options.locktime
      (options.inputs.any fun input => isSegwit input.scriptPubKey)) (decodes : decodeTx rawTx =
      some (wantedTx options outputs (signed.map fst), signed.map snd)) :
    (wantedTx options outputs (signed.map fst)).Typed ∧
      (∀ input ∈ options.inputs, isSegwit input.scriptPubKey = false) ∧
      options.inputs.length ≤ 0xffff ∧ outputs.length ≤ 0xffff ∧
      (options.inputs ≠ [] ∨ outputs = []) := by
  have read : unserializeTransaction rawTx =
      some ((wantedTx options outputs (signed.map fst), signed.map snd), []) := by
    unfold decodeTx at decodes
    split at decodes
    · rename_i ended
      rw [ended, Option.some.inj decodes]
    · cases decodes
  obtain ⟨typed, _, outputSize, form⟩ := unserializeTransaction_eq_some read
  have ids := fun input member => (parts.inputs_typed_iff.mp typed.inputs input member).1
  rcases form with ⟨streamEq, witnessEq, shape⟩ | streamEq
  · have legacy : ∀ input ∈ options.inputs, isSegwit input.scriptPubKey = false := by
      rw [← parts.legacy_iff, witnessEq, map_const', map_const', parts.inputs_length]
    have none : (options.inputs.any fun input => isSegwit input.scriptPubKey) = false := by
      simpa using legacy
    rw [none] at written
    rw [append_nil, written] at streamEq
    obtain ⟨inputCount, outputCount⟩ := (parts.serialized_iff ids).mp streamEq
    refine ⟨typed, legacy, inputCount, outputCount, shape.imp ?_ id⟩
    rw [← length_pos_iff, ← length_pos_iff, parts.inputs_length]
    exact id
  · exfalso
    -- the marker is read as an empty list of inputs, so there is no input
    rw [append_nil, written] at streamEq
    have noInput : options.inputs = [] := by
      unfold serializeTx ParsedTx.extended at streamEq
      simp only [append_assoc] at streamEq
      have same := (append_cancel_left_eq _ _ _).mp streamEq
      have zero := head_writeVarInt same
      unfold effectiveInputs at zero
      rwa [length_map, length_eq_zero_iff] at zero
    have noneSigned : signed = [] := by
      have count := parts.signed.length_eq
      rw [noInput] at count
      exact length_eq_zero_iff.mp count.symm
    rw [noInput, any_nil, serializeTx_legacy _ parts.scripts
      (short_of_buildOutput parts.built)] at streamEq
    have lengths := congrArg List.length streamEq
    have outputCount := @length_writeVarInt outputs.length
      (le_trans outputSize (by unfold maxVectorSize; decide))
    simp [ParsedTx.extended, writeList, wantedTx, sentTx, effectiveInputs, noInput, noneSigned,
      length_signedBytes, length_leBytes] at lengths
    have one : (writeVarInt 0).length = 1 ∧ (writeCompactSize 0).length = 1 := by decide
    split_ifs at outputCount <;> omega

end Parts

end

theorem parts_of_built
    (signatures : ∀ digest key, (crypto.sign digest key).length ≤ 72) {options : PSBTBuildOptions}
    {outputs : List TxOutput} {signed : List (Bytes × List Bytes)}
    (outputsBuilt : List.Forall₂ (fun out result => buildOutput crypto out = .ok result)
      options.outputs outputs) (inputsSigned : List.Forall₂ (fun entry result =>
      signInput crypto options.inputs outputs entry = .ok result) options.inputs.zipIdx signed) :
    Parts crypto options outputs signed := by
  refine ⟨outputsBuilt, ?_⟩
  have shapes := inputsSigned.imp fun entry result done => signInput_shape signatures done
  rw [← forall₂_map_left_iff (f := fst)
    (R := fun (input : PSBTInput) (result : Bytes × List Bytes) => result.1.length ≤ 0xffff ∧
      (result.2 = [] ↔ isSegwit input.scriptPubKey = false)), zipIdx_map_fst] at shapes
  exact shapes

/-- What the builder returns is well formed exactly for the options that are buildable:
no input of SegWit, at most 65535 inputs and outputs, and outputs to addresses of public
keys (or of scripts with the letter `H`). -/
theorem built_transaction_well_formed_iff (crypto : Crypto)
    (signatures : ∀ digest key, (crypto.sign digest key).length ≤ 72) (options : PSBTBuildOptions)
    (txid rawTx : Bytes) (built : buildAndSignOnly crypto options = .ok (txid, rawTx)) :
    (∃ outputs signed,
      List.Forall₂ (fun out result => buildOutput crypto out = .ok result) options.outputs outputs ∧
      List.Forall₂ (fun entry result => signInput crypto options.inputs outputs entry = .ok result)
        options.inputs.zipIdx signed ∧ WellFormed crypto options txid rawTx outputs signed) ↔
    Buildable options := by
  obtain ⟨raw, rawBuilt, returned⟩ := bind_eq_ok.mp built
  obtain ⟨idEq, rfl⟩ := Prod.mk.inj (pure_eq_ok.mp returned)
  obtain ⟨outputs, signed, outputsBuilt, inputsSigned, written⟩ := built_of_buildP2PKHTx rawBuilt
  have parts := parts_of_built signatures outputsBuilt inputsSigned
  have count := outputsBuilt.length_eq
  constructor
  · rintro ⟨outputs', signed', outputsBuilt', inputsSigned', wellFormed⟩
    obtain rfl : outputs = outputs' := Except.ok.inj
      ((mapM_eq_ok.mpr outputsBuilt).symm.trans (mapM_eq_ok.mpr outputsBuilt'))
    obtain rfl : signed = signed' := Except.ok.inj
      ((mapM_eq_ok.mpr inputsSigned).symm.trans (mapM_eq_ok.mpr inputsSigned'))
    obtain ⟨typed, legacy, inputCount, outputCount, shape⟩ :=
      parts.buildable_of_decodes written wellFormed.decodes
    have paid : ∀ out ∈ options.outputs, Fits 64 out.valueSat ∧ KnownAddress out.address := by
      intro out member
      obtain ⟨index, bound, rfl⟩ := mem_iff_getElem.mp member
      have each := (forall₂_iff_get.mp outputsBuilt).2 index bound (count ▸ bound)
      obtain ⟨value, some_script, destination⟩ :=
        (forall₂_iff_get.mp wellFormed.scripts).2 index bound (count ▸ bound)
      obtain ⟨script, scriptBuilt, each⟩ := bind_eq_ok.mp each
      have result := pure_eq_ok.mp each
      rw [← result] at some_script destination
      refine ⟨?_, known_of_destination scriptBuilt some_script destination⟩
      rw [← get_eq_getElem (i := ⟨index, bound⟩), ← value]
      exact typed.outputs _ (get_mem _ _)
    refine ⟨legacy, inputCount, count ▸ outputCount, shape.imp id fun none => ?_,
      parts.inputs_typed_iff.mp typed.inputs, fun out member => (paid out member).1,
      fun out member => (paid out member).2, typed.locktime⟩
    rw [← length_eq_zero_iff, count, none, length_nil]
  · intro buildable
    refine ⟨outputs, signed, outputsBuilt, inputsSigned, ?_⟩
    have ids := fun input member => (buildable.typed input member).1
    have none : (options.inputs.any fun input => isSegwit input.scriptPubKey) = false := by
      simpa using buildable.legacy
    rw [none] at written
    have serialized := (parts.serialized_iff ids).mpr
      ⟨buildable.inputs, count ▸ buildable.outputs⟩
    rw [← written] at serialized
    have paid : List.Forall₂ (fun wanted out => out.value = wanted.valueSat ∧
        out.scriptPubKey ≠ [] ∧ destinationScript crypto wanted.address = some out.scriptPubKey)
        options.outputs outputs := by
      refine forall₂_iff_get.mpr ⟨count, fun index bound bound' => ?_⟩
      have each := (forall₂_iff_get.mp outputsBuilt).2 index bound bound'
      obtain ⟨script, scriptBuilt, each⟩ := bind_eq_ok.mp each
      rw [← pure_eq_ok.mp each]
      exact ⟨rfl, destination_of_known scriptBuilt
        (buildable.addresses _ (get_mem _ ⟨index, bound⟩))⟩
    refine ⟨?_, paid, ?_, by rw [← idEq, serialized]⟩
    · have inputSize := buildable.inputs
      have outputSize := buildable.outputs
      have fits : ∀ out ∈ outputs, Fits 64 out.value := by
        intro out member
        obtain ⟨wanted, wantedMember, value, _⟩ := exists_of_mem_right paid member
        rw [value]
        exact buildable.values wanted wantedMember
      rw [serialized, decodeTx_serialized ⟨parts.inputs_typed_iff.mpr buildable.typed, fits,
        buildable.locktime⟩ (show Fits 32 2 by decide)
        (by rw [parts.inputs_length]; unfold maxVectorSize; omega)
        (by change outputs.length ≤ _; rw [← count]; unfold maxVectorSize; omega) ?_ ?_ ?_]
      · rw [parts.legacy_iff.mpr buildable.legacy, map_const', map_const',
          parts.inputs_length]
      · intro input member
        obtain ⟨entry, inZip, rfl⟩ := mem_map.mp member
        exact (parts.scripts entry.2 (of_mem_zip inZip).2).trans (by decide)
      · intro out member
        exact (short_of_buildOutput outputsBuilt out member).trans (by decide)
      · refine buildable.shape.imp ?_ fun none => ?_
        · rw [← length_pos_iff, ← length_pos_iff, parts.inputs_length]
          exact id
        · change outputs = []
          rw [← length_eq_zero_iff, ← count, none, length_nil]
    · intro index input found segwit
      rw [buildable.legacy input (mem_of_getElem? found)] at segwit
      cases segwit

def sampleAddress : Bytes := ascii "PYZwHhaL8w15Wc9dmjWjcVjhD4roMYebXu"

def samplePayment (scriptPubKey : Bytes) : PSBTBuildOptions where
  inputs := [{ sampleInput with scriptPubKey := scriptPubKey }]
  outputs := [⟨sampleAddress, 50000⟩]

theorem built_transaction_well_formed_iff_payment : ∃ txid rawTx,
    buildAndSignOnly sampleCrypto (samplePayment (p2pkhScript (List.replicate 20 7))) =
      .ok (txid, rawTx) ∧ ∃ outputs signed, WellFormed sampleCrypto
      (samplePayment (p2pkhScript (List.replicate 20 7))) txid rawTx outputs signed := by
  have passes : (buildAndSignOnly sampleCrypto
      (samplePayment (p2pkhScript (replicate 20 7)))).passed = true := by decide +kernel
  obtain ⟨⟨txid, rawTx⟩, built⟩ := passed_iff.mp passes
  have decoded : base58Decode sampleAddress =
      .ok (56 :: replicate 20 7 ++ replicate 4 0) := by decide +kernel
  have buildable : Buildable (samplePayment (p2pkhScript (replicate 20 7))) := by
    refine ⟨by decide, by decide, by decide, .inl (by simp [samplePayment]), ?_, by decide, ?_,
      by decide⟩
    · intro input member
      obtain rfl := mem_singleton.mp member
      decide
    · intro out member
      obtain rfl := mem_singleton.mp member
      exact ⟨_, decoded, rfl, .inl ⟨by decide, rfl⟩⟩
  obtain ⟨outputs, signed, _, _, wellFormed⟩ := (built_transaction_well_formed_iff sampleCrypto
    (fun digest key => by simp [sampleCrypto]) _ txid rawTx built).mpr buildable
  exact ⟨txid, rawTx, built, outputs, signed, wellFormed⟩

/-- With an input of SegWit the bytes are no transaction. -/
theorem segwit_payment_does_not_decode :
    (buildP2PKHTx sampleCrypto (samplePayment ([0x00, 0x14] ++ List.replicate 20 7))).passed = true ∧
    (buildP2PKHTx sampleCrypto (samplePayment ([0x00, 0x14] ++ List.replicate 20 7))).toOption.bind
      decodeTx = none := by
  decide +kernel

end Phicoin.Web
