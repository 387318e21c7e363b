import Phicoin.AssetHash
import Phicoin.Lib.Binary64
import Phicoin.Lib.Encoding
import Phicoin.NullRoundTrip
import Phicoin.WebTransaction

/-! # Asset scripts of the web wallet

The web wallet writes the outputs of asset transactions itself.  Names and pushes are as
the daemon writes them, for names up to 252 bytes.  An amount comes as a number, the nearest
one where the amount itself is none.  A hash is written without the length the daemon writes,
which is in the bytes of an IPFS hash already; a message of a transfer is written as its
text. -/

namespace Phicoin.Web

open Binary64 ByteReader Check TwosComplement List

def pushData (payload : Bytes) : Check Bytes :=
  if payload.length < 0x4c then return UInt8.ofNat payload.length :: payload
  else if payload.length ≤ 0xff then return opPushdata1 :: UInt8.ofNat payload.length :: payload
  else if payload.length ≤ 0xffff then
    return opPushdata2 :: UInt8.ofNat (payload.length % 256) ::
      UInt8.ofNat (payload.length / 256 % 256) :: payload
  else .error "Asset script payload too large: max 65535 bytes"

def writeVarString (text : Bytes) : Check Bytes := do
  require (text.length ≤ 252) "Asset string too long: max 252 bytes"
  return UInt8.ofNat text.length :: text

/-- `writeInt64` of a whole number. -/
def writeInt64 (value : Number) : Bytes := signedBytes 8 value.value

def writeInt8 (value : Int) : Bytes := signedBytes 1 value

/-- `trim` of a text without spaces outside ASCII. -/
def trim (text : Bytes) : Bytes :=
  ((text.dropWhile isSpace).reverse.dropWhile isSpace).reverse

/-- `serializeAssetHash`; the Base58 library decodes as `base58Decode` does. -/
def serializeAssetHash (hashStr : Bytes) : Check Bytes :=
  let s := trim hashStr
  if s.length = 46 then do
    let raw ← base58Decode s
    require (raw.length = 34) "Invalid IPFS hash: CID decoded to another number of bytes than 34"
    return raw
  else if s.length = 64 && s.all isHexDigit then return 0x54 :: parseHex s
  else .error "Invalid asset hash: expected a 46-char IPFS CIDv0 or a 64-char hex txid"

def hashWhenGiven (hashStr : Bytes) : Check Bytes :=
  if hashStr = [] then return [] else serializeAssetHash hashStr

def hashWhenFlagged (hasIPFS : Int) (hashStr : Bytes) : Check Bytes :=
  if hasIPFS = 1 then hashWhenGiven hashStr else return []

def serializeCNewAsset (name : Bytes) (amount : Number) (units reissuable hasIPFS : Int)
    (ipfsHash : Bytes) : Check Bytes := do
  let text ← writeVarString name
  let hash ← hashWhenFlagged hasIPFS ipfsHash
  return text ++ writeInt64 amount ++ writeInt8 units ++ writeInt8 reissuable ++
    writeInt8 hasIPFS ++ hash

def messageText (message : Bytes) : Check Bytes :=
  if message = [] then return [] else writeVarString message

def serializeCAssetTransfer (name : Bytes) (amount : Number) (message : Bytes)
    (expireTime : Number) : Check Bytes := do
  let text ← writeVarString name
  let written ← messageText message
  return text ++ writeInt64 amount ++ written ++
    if expireTime.value ≠ 0 then writeInt64 expireTime else []

def serializeCReissueAsset (name : Bytes) (amount : Number) (units reissuable : Int)
    (ipfsHash : Bytes) : Check Bytes := do
  let text ← writeVarString name
  let hash ← hashWhenGiven ipfsHash
  return text ++ writeInt64 amount ++ writeInt8 units ++ writeInt8 reissuable ++ hash

def serializeCNullAssetTxData (assetName : Bytes) (flag : Int) : Check Bytes := do
  return (← writeVarString assetName) ++ writeInt8 flag

/-- A script with the pushed record, as the callers of `encodeAssetPushData` put it
together. -/
def assetScript (p2pkh : Bytes) (magic : UInt8) (data : Bytes) : Check Bytes := do
  return p2pkh ++ opPhiAsset :: (← pushData ([phiR, phiV, phiN, magic] ++ data)) ++ [opDrop]

def newAssetScript (p2pkh name : Bytes) (amount : Number) (units reissuable hasIPFS : Int)
    (ipfsHash : Bytes) : Check Bytes := do
  assetScript p2pkh phiQ (← serializeCNewAsset name amount units reissuable hasIPFS ipfsHash)

def transferScript (p2pkh name : Bytes) (amount : Number) (message : Bytes)
    (expireTime : Number) : Check Bytes := do
  assetScript p2pkh phiT (← serializeCAssetTransfer name amount message expireTime)

def reissueScript (p2pkh name : Bytes) (amount : Number) (units reissuable : Int)
    (ipfsHash : Bytes) : Check Bytes := do
  assetScript p2pkh phiR (← serializeCReissueAsset name amount units reissuable ipfsHash)

/-- `buildOwnerOutputScript` of `serializeOwnerPayload` -/
def buildOwnerOutputScript (p2pkh assetName : Bytes) : Check Bytes := do
  assetScript p2pkh phiO (← writeVarString (assetName ++ ownerTag))

/-- `stripVerifierString` of a text in ASCII, the only ones the daemon accepts. -/
def stripVerifierString (verifier : Bytes) : Bytes :=
  (verifier.filter fun c => !isSpace c).filter (· ≠ qualifierChar)

def buildVerifierOutputScript (verifierString : Bytes) : Check Bytes := do
  let body ← writeVarString (stripVerifierString verifierString)
  return opPhiAsset :: opReserved :: (← pushData body)

def buildNullAssetDataScript (h160 serialized : Bytes) : Check Bytes := do
  require (h160.length = 20) "h160 must be 20 bytes (40 hex chars)"
  return opPhiAsset :: 0x14 :: h160 ++ (← pushData serialized)

def buildGlobalRestrictionScript (serialized : Bytes) : Check Bytes := do
  return opPhiAsset :: opReserved :: opReserved :: (← pushData serialized)

theorem pushData_eq {payload : Bytes} (short : payload.length ≤ 0xffff) :
    pushData payload = .ok (Phicoin.pushData payload) := by
  unfold pushData Phicoin.pushData
  split_ifs
  · rfl
  · rfl
  · rfl

theorem length_pushData {payload : Bytes} (short : payload.length ≤ 0xffff) :
    (Phicoin.pushData payload).length = payload.length +
      if payload.length < 0x4c then 1 else if payload.length ≤ 0xff then 2 else 3 := by
  unfold Phicoin.pushData
  split_ifs <;> simp [leBytes]

theorem pushData_suffix (payload : Bytes) : ∃ lead, Phicoin.pushData payload = lead ++ payload := by
  unfold Phicoin.pushData
  split_ifs
  · exact ⟨[_], rfl⟩
  · exact ⟨[_, _], rfl⟩
  · exact ⟨_ :: leBytes 2 _, rfl⟩
  · exact ⟨_ :: leBytes 4 _, rfl⟩

theorem pushData_inj {left right : Bytes} (shortLeft : left.length ≤ 0xffff)
    (shortRight : right.length ≤ 0xffff)
    (same : Phicoin.pushData left = Phicoin.pushData right) : left = right := by
  have lengths := congrArg List.length same
  rw [length_pushData shortLeft, length_pushData shortRight] at lengths
  have sizes : left.length = right.length := by
    split_ifs at lengths <;> omega
  obtain ⟨leadLeft, leftEq⟩ := pushData_suffix left
  obtain ⟨leadRight, rightEq⟩ := pushData_suffix right
  rw [leftEq, rightEq] at same
  exact (append_inj' same sizes).2

variable {text : Bytes}

theorem writeString_short (short : text.length ≤ 252) :
    writeString text = UInt8.ofNat text.length :: text := by
  unfold writeString writeCompactSize
  rw [if_pos (by omega)]
  simp only [leBytes, singleton_append]
  rw [Nat.mod_eq_of_lt (by omega)]

theorem writeVarString_eq_ok {written : Bytes} :
    writeVarString text = .ok written ↔ text.length ≤ 252 ∧ written = writeString text := by
  unfold writeVarString
  rw [bind_eq_ok]
  constructor
  · rintro ⟨_, short, returned⟩
    rw [require_eq_ok, decide_eq_true_eq] at short
    rw [writeString_short short, ← pure_eq_ok.mp returned]
    exact ⟨short, rfl⟩
  · rintro ⟨short, rfl⟩
    rw [writeString_short short]
    exact ⟨(), by simpa using short, rfl⟩

variable {script : Bytes}

theorem assetScript_eq_ok {data written : Bytes} {magic : UInt8}
    (short : data.length + 4 ≤ 0xffff) (shortWritten : written.length + 4 ≤ 0xffff) :
    assetScript script magic data = .ok (appendAsset script magic written) ↔ data = written := by
  have size : ([phiR, phiV, phiN, magic] ++ data).length ≤ 0xffff := by simp; omega
  have sizeWritten : ([phiR, phiV, phiN, magic] ++ written).length ≤ 0xffff := by simp; omega
  unfold assetScript appendAsset
  rw [pushData_eq size]
  constructor
  · intro same
    have scripts := Except.ok.inj same
    rw [append_assoc, append_assoc] at scripts
    have tails := append_cancel_left scripts
    have pushes := append_cancel_right (List.cons.inj tails).2
    exact append_cancel_left (pushData_inj size sizeWritten pushes)
  · rintro rfl
    rfl

def AcceptedHash (env : Env) (text : Bytes) : Prop :=
  text = [] ∨ IsHashText text ∧ checkEncoded env (decodeAssetData text) = .ok ()

def IsMultihashText (text : Bytes) : Prop :=
  text = [] ∨ text.length = 46 ∧ (decodeAssetData text).take 2 = [ipfsSha2, ipfsSha2Len]

theorem trim_eq_self (noSpace : ∀ c ∈ text, isSpace c = false) : trim text = text := by
  have kept : ∀ part : Bytes, (∀ c ∈ part, isSpace c = false) → part.dropWhile isSpace = part := by
    intro part spaces
    rw [dropWhile_eq_self_iff]
    intro nonempty
    simpa using spaces _ (getElem_mem nonempty)
  unfold trim
  rw [kept text noSpace, kept text.reverse fun c member => noSpace c (mem_reverse.mp member),
    reverse_reverse]

theorem isSpace_hexDigit : ∀ n < 256, isHexDigit (UInt8.ofNat n) = true →
    isSpace (UInt8.ofNat n) = false := by
  decide +kernel

theorem horner_zeros (factor count : Nat) (digits : List Nat) :
    horner factor (replicate count 0 ++ digits) = horner factor digits := by
  have zeros : horner factor (replicate count 0) = 0 := by
    induction count with
    | zero => rfl
    | succ count ih => rw [replicate_succ', horner_append_singleton, ih, Nat.mul_zero]
  unfold horner at zeros ⊢
  rw [foldl_append, zeros]

theorem base58Decode_text (isText : IsBase58Text text) :
    base58Decode text = .ok ((decodeBase58 text).getD []) := by
  have folded : ∀ start : Nat, text.foldlM (fun (decimal : Nat) c => do
      let i ← require? (base58Alphabet.findIdx? (· = c))
        ("Invalid Base58 character: " ++ textOf [c])
      return decimal * 58 + i) start =
        (.ok ((text.map base58Alphabet.idxOf).foldl (fun value d => 58 * value + d) start) :
          Check Nat) := by
    induction text with
    | nil => exact fun _ => rfl
    | cons c rest ih =>
      intro start
      obtain ⟨member, restText⟩ := forall_mem_cons.mp isText
      have index : base58Alphabet.findIdx? (· = c) = some (base58Alphabet.idxOf c) :=
        findIdx?_eq_some_of_exists ⟨c, member, by simp⟩
      rw [foldlM_cons, index]
      simp only [require?]
      rw [map_cons, foldl_cons, Nat.mul_comm 58 start]
      exact ih restText _
  have leading := leading_append 49 text
  have ones : (text.takeWhile (· = 49)).length =
      text.length - (text.dropWhile (· = 49)).length := by
    have pieces := congrArg List.length
      (@List.takeWhile_append_dropWhile _ (fun c : UInt8 => decide (c = 49)) text)
    rw [length_append] at pieces
    omega
  have value : (text.map base58Alphabet.idxOf).foldl (fun value d => 58 * value + d) 0 =
      textValue (text.dropWhile (· = 49)) := by
    conv_lhs => rw [← leading]
    rw [map_append, map_replicate]
    exact horner_zeros 58 _ _
  rw [decodeBase58_text isText, Option.getD_some]
  unfold base58Decode
  rw [folded 0, value, ones]
  refine congrArg Except.ok ?_
  rw [reverse_append, reverse_replicate, ← map_reverse]
  rfl

theorem hashWhenGiven_spec {env : Env} (accepted : AcceptedHash env text) :
    ∃ written, hashWhenGiven text = .ok written ∧ written.length ≤ 34 ∧
      (written = writeAssetHash (decodeAssetData text) ↔ IsMultihashText text) := by
  rcases accepted with rfl | ⟨⟨size, base58⟩ | ⟨size, hex⟩, checked⟩
  · exact ⟨[], rfl, by decide, by simp [IsMultihashText, decodeAssetData, writeAssetHash]⟩
  · have given : text ≠ [] := by rintro rfl; simp at size
    obtain ⟨length, _⟩ := accepted_base58 size base58 checked
    have same : trim text = text :=
      trim_eq_self fun c member => (base58Alphabet_spec (base58 c member)).2.1
    have decoded : base58Decode text = .ok (decodeAssetData text) := by
      rw [base58Decode_text base58, decodeAssetData, if_pos size]
    refine ⟨decodeAssetData text, ?_, by omega, ?_⟩
    · unfold hashWhenGiven serializeAssetHash
      simp only [if_neg given, same, if_pos size]
      exact bind_eq_ok.mpr ⟨_, decoded, bind_eq_ok.mpr ⟨(), by simpa using length, rfl⟩⟩
    · have body : ((decodeAssetData text).drop 2).length = 32 := by rw [length_drop, length]
      have lead : writeAssetHash (decodeAssetData text) =
          [ipfsSha2, ipfsSha2Len] ++ (decodeAssetData text).drop 2 := by
        rw [writeAssetHash, if_pos length, writeString_short (by omega), body]
        rfl
      rw [lead, IsMultihashText, or_iff_right given, and_iff_right size]
      conv_lhs => lhs; rw [← take_append_drop 2 (decodeAssetData text)]
      exact append_left_inj _
  · have given : text ≠ [] := by rintro rfl; simp at size
    obtain ⟨length, _⟩ := decoded_hex size hex
    have digits : text.all isHexDigit = true := by
      simp only [isHex, Bool.and_eq_true] at hex
      exact hex.1.1
    have same : trim text = text := by
      refine trim_eq_self fun c member => ?_
      have spec := isSpace_hexDigit c.toNat c.toNat_lt
      rw [UInt8.ofNat_toNat] at spec
      exact spec (all_eq_true.mp digits c member)
    have parsed : decodeAssetData text = parseHex text := by
      unfold decodeAssetData
      rw [if_neg (by omega), if_pos (by simp [size, hex])]
    refine ⟨0x54 :: decodeAssetData text, ?_, by simp [length], ?_⟩
    · unfold hashWhenGiven serializeAssetHash
      simp only [if_neg given, same, size, digits, parsed]
      rfl
    · -- the daemon writes one byte more, the length of the id
      have longer : (writeAssetHash (decodeAssetData text)).length = 34 := by
        rw [writeAssetHash, if_neg (by omega), if_pos length, writeString_short (by omega)]
        simp [length]
      constructor
      · intro equal
        have lengths := congrArg List.length equal
        rw [longer, length_cons, length] at lengths
        omega
      · rintro (rfl | ⟨other, _⟩)
        · simp at size
        · omega

theorem decodeAssetData_eq_nil {env : Env} (accepted : AcceptedHash env text) :
    decodeAssetData text = [] ↔ text = [] := by
  constructor
  · intro empty
    rcases accepted with none | ⟨_, checked⟩
    · exact none
    · have length := accepted_length checked
      simp [empty] at length
  · rintro rfl
    rfl

theorem IsMultihashText.hashShape {env : Env} (isMultihash : IsMultihashText text)
    (accepted : AcceptedHash env text) : HashShape (decodeAssetData text) := by
  rcases isMultihash with rfl | ⟨size, lead⟩
  · exact .inl rfl
  · rcases accepted with rfl | ⟨⟨_, base58⟩ | ⟨other, _⟩, checked⟩
    · simp at size
    · exact .inr (.inr ⟨(accepted_base58 size base58 checked).1, lead⟩)
    · omega

/-- The wallet builds the daemon's script, and the daemon reads the record in it. -/
def Matches {α : Type} (built : Check Bytes) (script : Bytes) (parse : Bytes → Option α)
    (record : α) : Prop :=
  built = .ok script ∧ parse script = some record

def issued (name : Bytes) (amount units reissuable : Int) (text : Bytes) : NewAsset :=
  ⟨name, amount, units, reissuable, if text = [] then 0 else 1, decodeAssetData text⟩

section

variable {env : Env} {id name text : Bytes} {amount units reissuable : Int}

theorem named_eq_ok {α : Type} {next : Bytes → Check α} {result : α} :
    (writeVarString name >>= next) = .ok result ↔
      name.length ≤ 252 ∧ next (writeString name) = .ok result := by
  rw [bind_eq_ok]
  constructor
  · rintro ⟨written, wrote, returned⟩
    obtain ⟨short, rfl⟩ := writeVarString_eq_ok.mp wrote
    exact ⟨short, returned⟩
  · rintro ⟨short, returned⟩
    exact ⟨_, writeVarString_eq_ok.mpr ⟨short, rfl⟩, returned⟩

theorem p2pkhScript_eq (size : id.length = 20) : p2pkhScript id = payToPublicKeyHash id := by
  have fixed : fixedHash id = id := by
    rw [fixedHash, ← size, take_left]
  rw [p2pkhScript, fixed, payToPublicKeyHash, pushData_direct (by omega), size]
  rfl

theorem hashed_script_iff {magic : UInt8} {lead lead' : Bytes} (short : lead.length ≤ 300)
    (sizes : lead.length = lead'.length) (accepted : AcceptedHash env text) :
    (hashWhenGiven text >>= fun hash => assetScript script magic (lead ++ hash)) =
        .ok (appendAsset script magic (lead' ++ writeAssetHash (decodeAssetData text))) ↔
      lead = lead' ∧ IsMultihashText text := by
  obtain ⟨written, wrote, length, same⟩ := hashWhenGiven_spec accepted
  have hashLength := length_writeAssetHash_le (decodeAssetData text)
  rw [wrote, ← same]
  change assetScript _ _ _ = _ ↔ _
  rw [assetScript_eq_ok (by rw [length_append]; omega) (by rw [length_append]; omega)]
  exact ⟨fun equal => append_inj equal sizes, fun ⟨leads, hashes⟩ => by rw [leads, hashes]⟩

theorem writeInt64_eq_iff (amountFits : Fits 64 amount) :
    writeInt64 (Number.ofInt amount) = signedBytes 8 amount ↔ IsNumber amount := by
  rw [writeInt64, ← ofInt_eq_self_iff]
  constructor
  · intro same
    have words := congrArg leValue same
    unfold signedBytes at words
    rw [leValue_leBytes (by omega), leValue_leBytes (by omega)] at words
    have close := ofInt_close amount
    unfold Fits wrap at amountFits
    have range := Int.bmod_def amount (2 ^ 64)
    split at range <;> omega
  · intro same
    rw [same]

section

variable (size : id.length = 20) (nameLength : NameLength name)

include size nameLength

theorem newAsset_matches_iff
    (amountFits : Fits 64 amount) (unitsFit : Fits 8 units) (reissuableFits : Fits 8 reissuable)
    (accepted : AcceptedHash env text) :
    Matches (newAssetScript (p2pkhScript id) name (.ofInt amount) units reissuable
        (if text = [] then 0 else 1) text)
      ((issued name amount units reissuable text).constructTransaction (payToPublicKeyHash id))
      (assetFromScript env)
      (issued name amount units reissuable text, encodeDestination env (.keyId id)) ↔
        name.length ≤ 252 ∧ IsNumber amount ∧ IsMultihashText text := by
  have nameSize := @length_writeString_le name (by have := nameLength.2; omega)
  have flagged : hashWhenFlagged (if text = [] then 0 else 1) text = hashWhenGiven text := by
    by_cases none : text = []
    · rw [none]
      rfl
    · rw [if_neg none, hashWhenFlagged, if_pos rfl]
  have built : newAssetScript (p2pkhScript id) name (.ofInt amount) units reissuable
      (if text = [] then 0 else 1) text =
        .ok ((issued name amount units reissuable text).constructTransaction
          (payToPublicKeyHash id)) ↔
        name.length ≤ 252 ∧ IsNumber amount ∧ IsMultihashText text := by
    have daemon : writeNewAsset (issued name amount units reissuable text) =
        (writeString name ++ signedBytes 8 amount ++ signedBytes 1 units ++
          signedBytes 1 reissuable ++ signedBytes 1 (if text = [] then 0 else 1)) ++
            writeAssetHash (decodeAssetData text) := by
      by_cases none : text = []
      · subst none
        rfl
      · simp only [writeNewAsset, issued, if_neg none, if_true]
    unfold newAssetScript serializeCNewAsset
    rw [bind_assoc, named_eq_ok, p2pkhScript_eq size, NewAsset.constructTransaction, daemon,
      flagged, bind_assoc]
    simp only [pure_bind]
    refine and_congr_right fun _ => (hashed_script_iff ?_ ?_ accepted).trans
      (and_congr_left fun _ => ?_)
    · simp only [length_append, writeInt64, writeInt8, length_signedBytes]
      omega
    · simp only [length_append, writeInt64, writeInt8, length_signedBytes]
    · simp only [writeInt8, append_left_inj, append_right_inj, writeInt64_eq_iff amountFits]
  unfold Matches
  rw [built]
  refine and_iff_left_of_imp ?_
  rintro ⟨_, _, isMultihash⟩
  refine (newAsset_reads_back env size ⟨nameLength, amountFits, unitsFit, reissuableFits,
    isMultihash.hashShape accepted, ?_⟩).record
  simp only [issued, decodeAssetData_eq_nil accepted]

theorem owner_matches_iff (asset : NewAsset) (named : asset.strName = name) :
    Matches (buildOwnerOutputScript (p2pkhScript id) name)
      (asset.constructOwnerTransaction (payToPublicKeyHash id)) (ownerAssetFromScript env)
      (name ++ ownerTag, encodeDestination env (.keyId id)) ↔ name.length ≤ 251 := by
  subst named
  have tag : (asset.strName ++ ownerTag).length = asset.strName.length + 1 := by
    rw [length_append]
    rfl
  have nameSize := @length_writeString_le (asset.strName ++ ownerTag)
    (by have := nameLength.2; omega)
  have built : buildOwnerOutputScript (p2pkhScript id) asset.strName =
      .ok (asset.constructOwnerTransaction (payToPublicKeyHash id)) ↔
        asset.strName.length ≤ 251 := by
    have bound := nameLength.2
    unfold buildOwnerOutputScript
    rw [named_eq_ok, p2pkhScript_eq size, NewAsset.constructOwnerTransaction,
      assetScript_eq_ok (by omega) (by omega), tag, and_iff_left rfl]
    omega
  unfold Matches
  rw [built]
  exact and_iff_left_of_imp fun _ => (owner_reads_back env size nameLength).record

theorem reissue_matches_iff
    (amountFits : Fits 64 amount) (unitsFit : Fits 8 units) (reissuableFits : Fits 8 reissuable)
    (accepted : AcceptedHash env text) :
    Matches (reissueScript (p2pkhScript id) name (.ofInt amount) units reissuable text)
      (ReissueAsset.constructTransaction ⟨name, amount, units, reissuable, decodeAssetData text⟩
        (payToPublicKeyHash id))
      (reissueAssetFromScript env)
      (⟨name, amount, units, reissuable, decodeAssetData text⟩,
        encodeDestination env (.keyId id)) ↔
        name.length ≤ 252 ∧ IsNumber amount ∧ IsMultihashText text := by
  have nameSize := @length_writeString_le name (by have := nameLength.2; omega)
  have built : reissueScript (p2pkhScript id) name (.ofInt amount) units reissuable text =
      .ok (ReissueAsset.constructTransaction
        ⟨name, amount, units, reissuable, decodeAssetData text⟩ (payToPublicKeyHash id)) ↔
          name.length ≤ 252 ∧ IsNumber amount ∧ IsMultihashText text := by
    unfold reissueScript serializeCReissueAsset
    rw [bind_assoc, named_eq_ok, p2pkhScript_eq size, ReissueAsset.constructTransaction, bind_assoc]
    simp only [pure_bind]
    refine and_congr_right fun bound => (hashed_script_iff ?_ ?_ accepted).trans
      (and_congr_left fun _ => ?_)
    · simp only [length_append, writeInt64, writeInt8, length_signedBytes]
      omega
    · simp only [length_append, writeInt64, writeInt8, length_signedBytes]
    · simp only [writeInt8, append_left_inj, append_right_inj, writeInt64_eq_iff amountFits]
  unfold Matches
  rw [built]
  refine and_iff_left_of_imp ?_
  rintro ⟨_, _, isMultihash⟩
  exact (reissue_reads_back env size ⟨nameLength, amountFits, unitsFit, reissuableFits,
    isMultihash.hashShape accepted⟩).record

end

theorem eq_replicate_of_shift {a c : UInt8} {l : Bytes} (shifted : a :: l = l ++ [c]) :
    c = a ∧ l = replicate l.length a := by
  induction l generalizing a with
  | nil => exact ⟨(List.cons.inj shifted).1.symm, rfl⟩
  | cons x rest ih =>
    obtain ⟨same, tails⟩ := List.cons.inj shifted
    subst same
    obtain ⟨last, all⟩ := ih tails
    refine ⟨last, ?_⟩
    rw [length_cons, replicate_succ, ← all]

theorem shifted_text {a : UInt8} {follow rest : Bytes} (same : a :: text ++ follow = text ++ rest) :
    ∃ tail, rest = a :: tail ∧ text = replicate text.length a ∧ tail = follow := by
  have sizes := congrArg List.length same
  simp only [length_append, length_cons] at sizes
  match rest with
  | [] => simp only [length_nil] at sizes; omega
  | c :: tail =>
    rw [length_cons] at sizes
    rw [show text ++ c :: tail = (text ++ [c]) ++ tail by simp] at same
    obtain ⟨texts, follows⟩ := append_inj' same (by omega)
    obtain ⟨rfl, all⟩ := eq_replicate_of_shift texts
    exact ⟨tail, rfl, all, follows.symm⟩

theorem transfer_lost (size : id.length = 20) (long : 62 < name.length)
    (short : name.length ≤ 252) (amountFits : Fits 64 amount) (range : amount ≤ maxMoney)
    (before : env.areTransferScriptsSizeDeployed = false) {address : Bytes} :
    transferAssetFromScript env (AssetTransfer.constructTransaction ⟨name, amount, [], 0⟩
      (payToPublicKeyHash id)) ≠ some (⟨name, amount, [], 0⟩, address) := by
  intro found
  obtain ⟨start, _, found⟩ := Option.bind_eq_some_iff.mp found
  obtain ⟨transfer, read, returned⟩ := Option.bind_eq_some_iff.mp found
  simp only [Option.pure_def, Option.some.injEq, Prod.mk.injEq] at returned
  rw [before, returned.1] at read
  obtain ⟨_, read⟩ := readAt_eq_some.mp read
  obtain ⟨readName, afterName, textRead, read⟩ := run_bind.mp read
  obtain ⟨readAmount, afterAmount, amountRead, read⟩ := run_bind.mp read
  obtain ⟨_, _, _, read⟩ := run_bind.mp read
  obtain ⟨_, _, _, read⟩ := run_bind.mp read
  obtain ⟨record, _⟩ := run_pure.mp read
  obtain ⟨rfl, rfl⟩ : readName = name ∧ readAmount = amount :=
    ⟨(congrArg AssetTransfer.strName record).symm, (congrArg AssetTransfer.nAmount record).symm⟩
  have stream := (readString_eq_some textRead).2
  have amounts := readSigned_eq_some amountRead
  set payload := [phiR, phiV, phiN, phiT] ++ (writeString readName ++ signedBytes 8 readAmount)
    with payloadEq
  have payloadLength : payload.length = readName.length + 13 := by
    rw [payloadEq, writeString_short short]
    simp [length_signedBytes]
  have written : (AssetTransfer.constructTransaction ⟨readName, readAmount, [], 0⟩
      (payToPublicKeyHash id)).drop 31 =
        (opPhiAsset :: Phicoin.pushData payload ++ [opDrop]).drop 6 := by
    have record : writeAssetTransfer ⟨readName, readAmount, [], 0⟩ =
        writeString readName ++ signedBytes 8 readAmount := by
      simp [writeAssetTransfer, writeAssetHash]
    rw [AssetTransfer.constructTransaction, record, appendAsset, append_assoc,
      show 31 = (payToPublicKeyHash id).length + 6 by rw [length_payToPublicKeyHash size],
      drop_length_add_append]
  simp only [Bool.false_eq_true, if_false] at stream
  rw [written, Phicoin.pushData, if_neg (by omega)] at stream
  by_cases one : payload.length ≤ 0xff
  · -- one byte early: the last byte of the kind is read as the length
    rw [if_pos one, payloadEq, writeString_short short] at stream
    obtain ⟨kind, stream⟩ := List.cons.inj stream
    have streamed : UInt8.ofNat readName.length :: readName ++
        (signedBytes 8 readAmount ++ [opDrop]) = readName ++ afterName := by
      simpa using stream
    rw [← kind] at streamed
    obtain ⟨tail, rfl, _, rfl⟩ := shifted_text streamed
    obtain ⟨_, _, bytes, _⟩ := shifted_text amounts
    rw [length_signedBytes] at bytes
    have back := @readInt64_signedBytes [] readAmount amountFits
    rw [bytes] at back
    have other : readInt64 (replicate 8 phiT ++ []) = some (8391460049216894068, []) := by
      decide +kernel
    rw [other] at back
    simp only [Option.some.injEq, Prod.mk.injEq] at back
    have : maxMoney = 5000000000000000000 := by decide
    omega
  · -- two bytes early: the length would be 110
    rw [if_neg one, if_pos (by omega), payloadEq, writeString_short short] at stream
    obtain ⟨kind, _⟩ := List.cons.inj stream
    have value := congrArg UInt8.toNat kind
    rw [UInt8.toNat_ofNat', Nat.mod_eq_of_lt (by omega)] at value
    have : phiN.toNat = 110 := by decide
    omega

theorem transferScript_eq_ok {message : Bytes} {time : Int} (nameLength : NameLength name)
    (amountFits : Fits 64 amount) (accepted : AcceptedHash env message) :
    transferScript script name (.ofInt amount) message (.ofInt time) =
        .ok (AssetTransfer.constructTransaction ⟨name, amount, decodeAssetData message, time⟩
          script) ↔ name.length ≤ 252 ∧ IsNumber amount ∧ message = [] ∧ time = 0 := by
  have nameSize := @length_writeString_le name (by have := nameLength.2; omega)
  have timeLength : ∀ (present : Prop) (_ : Decidable present) (value : Int),
      (if present then signedBytes 8 value else []).length = if present then 8 else 0 := by
    intro present _ value
    split_ifs
    · exact length_signedBytes 8 value
    · rfl
  unfold transferScript serializeCAssetTransfer
  rw [bind_assoc, named_eq_ok, AssetTransfer.constructTransaction, bind_assoc]
  refine and_congr_right fun bound => ?_
  rcases accepted with rfl | ⟨isText, checked⟩
  · have hash : decodeAssetData [] = [] := rfl
    rw [hash, and_iff_right (rfl : ([] : Bytes) = [])]
    change assetScript _ _ _ = _ ↔ _
    rw [assetScript_eq_ok]
    · by_cases none : time = 0
      · subst none
        have zero : (Number.ofInt 0).value = 0 := rfl
        simp [zero, writeAssetTransfer, writeAssetHash, writeInt64_eq_iff amountFits]
      · have given : (Number.ofInt time).value ≠ 0 := fun zero => none (ofInt_eq_zero_iff.mp zero)
        refine iff_of_false (fun same => ?_) fun holds => none holds.2
        have lengths := congrArg List.length same
        simp [given, writeAssetTransfer, writeAssetHash, writeInt64, length_signedBytes] at lengths
    · simp only [length_append, writeInt64, length_signedBytes, timeLength, length_nil]
      split_ifs <;> omega
    · simp only [writeAssetTransfer, writeAssetHash, length_append, length_signedBytes,
        timeLength]
      simp
      omega
  · have textLength : message.length = 46 ∨ message.length = 64 :=
      isText.imp And.left And.left
    have given : message ≠ [] := by rintro rfl; simp at textLength
    have hashLength := accepted_length checked
    have wrote : messageText message = .ok (writeString message) := by
      rw [messageText, if_neg given]
      exact writeVarString_eq_ok.mpr ⟨by omega, rfl⟩
    refine iff_of_false (fun same => ?_) fun none => given none.2.1
    rw [wrote] at same
    change assetScript _ _ _ = _ at same
    -- the message takes 47 or 65 bytes here, and 34 bytes there
    have hashSize : (writeAssetHash (decodeAssetData message)).length ≤ 34 :=
      length_writeAssetHash_le _
    have textSize : (writeString message).length = message.length + 1 := by
      rw [writeString_short (by omega), length_cons]
    have webSize : (writeString name ++ writeInt64 (.ofInt amount) ++ writeString message ++
        if (Number.ofInt time).value ≠ 0 then writeInt64 (.ofInt time) else []).length =
          (writeString name).length + 8 + (message.length + 1) + if time ≠ 0 then 8 else 0 := by
      simp only [length_append, writeInt64, length_signedBytes, timeLength, textSize, ne_eq,
        ofInt_eq_zero_iff]
    have daemonSize : (writeAssetTransfer ⟨name, amount, decodeAssetData message, time⟩).length ≤
        (writeString name).length + 8 + 34 + if time ≠ 0 then 8 else 0 := by
      simp only [writeAssetTransfer, length_append, length_signedBytes, timeLength]
      by_cases none : time = 0
      · simp [none, hashSize]
      · simp only [none, ne_eq, not_false_eq_true, if_true]
        split_ifs <;> omega
    rw [assetScript_eq_ok (by rw [webSize]; split_ifs <;> omega)
      (by revert daemonSize; split_ifs <;> omega)] at same
    rw [← same, webSize] at daemonSize
    omega

theorem transfer_matches_iff {message : Bytes} {time : Int} (size : id.length = 20)
    (nameLength : NameLength name) (amountFits : Fits 64 amount) (range : amount ≤ maxMoney)
    (accepted : AcceptedHash env message) :
    Matches (transferScript (p2pkhScript id) name (.ofInt amount) message (.ofInt time))
      (AssetTransfer.constructTransaction ⟨name, amount, decodeAssetData message, time⟩
        (payToPublicKeyHash id))
      (transferAssetFromScript env)
      (⟨name, amount, decodeAssetData message, time⟩, encodeDestination env (.keyId id)) ↔
        (name.length ≤ 252 ∧ IsNumber amount ∧ message = [] ∧ time = 0) ∧
          (env.areTransferScriptsSizeDeployed = true ∨ name.length ≤ 62) := by
  unfold Matches
  rw [p2pkhScript_eq size, transferScript_eq_ok nameLength amountFits accepted]
  refine and_congr_right fun ⟨short, _, noMessage, noTime⟩ => ?_
  subst noMessage noTime
  constructor
  · intro read
    by_contra neither
    rw [not_or, Bool.not_eq_true] at neither
    exact transfer_lost size (by omega) short amountFits range neither.1 read
  · intro located
    refine (transfer_reads_back env size ⟨nameLength, amountFits, .inl rfl, (by decide : Fits 64 0),
      fun _ => rfl⟩ (located.imp_right fun direct => ?_)).record
    have written : writeAssetTransfer ⟨name, amount, decodeAssetData [], 0⟩ =
        writeString name ++ signedBytes 8 amount := by
      simp [writeAssetTransfer, writeAssetHash, decodeAssetData]
    rw [written, writeString_short short, length_append, length_signedBytes, length_cons]
    omega

variable {flag : Int}

theorem serializeCNullAssetTxData_eq_ok {α : Type} {next : Bytes → Check α} {result : α} :
    (serializeCNullAssetTxData name flag >>= next) = .ok result ↔
      name.length ≤ 252 ∧ next (writeNullAssetTxData ⟨name, flag⟩) = .ok result := by
  unfold serializeCNullAssetTxData
  rw [bind_assoc, named_eq_ok]
  rfl

theorem length_nullData_le (short : name.length ≤ 252) :
    (writeNullAssetTxData ⟨name, flag⟩).length ≤ 0xffff := by
  rw [length_writeNull, writeString_short short, length_cons]
  omega

theorem nullData_matches_iff (versions : env.DistinctVersions) (size : id.length = 20)
    (valid : NullAssetName name) (fits : Fits 8 flag) :
    Matches (serializeCNullAssetTxData name flag >>= buildNullAssetDataScript id)
      (NullAssetTxData.constructTransaction ⟨name, flag⟩
        (getScriptForNullAssetDataDestination (.keyId id)))
      (assetNullDataFromScript env)
      (⟨name, flag⟩, encodeDestination env (.keyId id)) ↔ name.length ≤ 73 := by
  have reads := @nullData_reads_back_iff env versions (.keyId id) name flag size valid fits
  simp only [TxDestination.isKey, true_and] at reads
  unfold Matches
  rw [reads]
  refine and_iff_right_of_imp fun short => serializeCNullAssetTxData_eq_ok.mpr ⟨by omega, ?_⟩
  unfold buildNullAssetDataScript
  rw [pushData_eq (length_nullData_le (by omega))]
  refine bind_eq_ok.mpr ⟨(), by simpa using size, ?_⟩
  rw [getScriptForNullAssetDataDestination, nullAssetDataDestination_eq size]
  rfl

theorem globalRestriction_matches_iff (valid : NullAssetName name) (fits : Fits 8 flag) :
    Matches (serializeCNullAssetTxData name flag >>= buildGlobalRestrictionScript)
      (NullAssetTxData.constructGlobalRestrictionTransaction ⟨name, flag⟩ [])
      globalAssetNullDataFromScript ⟨name, flag⟩ ↔ name.length ≤ 73 := by
  unfold Matches
  rw [globalNullData_reads_back_iff valid fits]
  refine and_iff_right_of_imp fun short => serializeCNullAssetTxData_eq_ok.mpr ⟨by omega, ?_⟩
  unfold buildGlobalRestrictionScript
  rw [pushData_eq (length_nullData_le (by omega))]
  rfl

theorem verifier_matches_iff (verifier : Bytes) :
    Matches (buildVerifierOutputScript verifier)
      (constructVerifierTransaction (getStrippedVerifierString verifier) [])
      assetNullVerifierDataFromScript (getStrippedVerifierString verifier) ↔
        (getStrippedVerifierString verifier).length ≤ 74 := by
  unfold Matches
  rw [verifierString_reads_back_iff]
  refine and_iff_right_of_imp fun short => ?_
  have stripped : stripVerifierString verifier = getStrippedVerifierString verifier := rfl
  unfold buildVerifierOutputScript
  rw [stripped, named_eq_ok]
  refine ⟨by omega, ?_⟩
  rw [pushData_eq (by rw [writeString_short (by omega), length_cons]; omega)]
  rfl

end

/-- The wallet's script is the daemon's, and is read back as its record, exactly for short
names and strings, for amounts that are numbers, for no hash or the multihash of an IPFS
object, and for transfers without a message and a time. -/
theorem web_scripts_match_iff (env : Env) (versions : env.DistinctVersions) (id : Bytes)
    (size : id.length = 20) :
    (∀ (name text : Bytes) (amount units reissuable : Int), NameLength name → Fits 64 amount →
      Fits 8 units → Fits 8 reissuable → AcceptedHash env text →
        (Matches (newAssetScript (p2pkhScript id) name (.ofInt amount) units reissuable
            (if text = [] then 0 else 1) text)
          ((issued name amount units reissuable text).constructTransaction
            (payToPublicKeyHash id))
          (assetFromScript env)
          (issued name amount units reissuable text, encodeDestination env (.keyId id)) ↔
            name.length ≤ 252 ∧ IsNumber amount ∧ IsMultihashText text)) ∧
    (∀ asset : NewAsset, NameLength asset.strName →
      (Matches (buildOwnerOutputScript (p2pkhScript id) asset.strName)
        (asset.constructOwnerTransaction (payToPublicKeyHash id)) (ownerAssetFromScript env)
        (asset.strName ++ ownerTag, encodeDestination env (.keyId id)) ↔
          asset.strName.length ≤ 251)) ∧
    (∀ (name text : Bytes) (amount units reissuable : Int), NameLength name → Fits 64 amount →
      Fits 8 units → Fits 8 reissuable → AcceptedHash env text →
        (Matches (reissueScript (p2pkhScript id) name (.ofInt amount) units reissuable text)
          (ReissueAsset.constructTransaction
            ⟨name, amount, units, reissuable, decodeAssetData text⟩ (payToPublicKeyHash id))
          (reissueAssetFromScript env)
          (⟨name, amount, units, reissuable, decodeAssetData text⟩,
            encodeDestination env (.keyId id)) ↔
            name.length ≤ 252 ∧ IsNumber amount ∧ IsMultihashText text)) ∧
    (∀ (name message : Bytes) (amount time : Int), NameLength name → Fits 64 amount →
      amount ≤ maxMoney → AcceptedHash env message →
        (Matches (transferScript (p2pkhScript id) name (.ofInt amount) message (.ofInt time))
          (AssetTransfer.constructTransaction ⟨name, amount, decodeAssetData message, time⟩
            (payToPublicKeyHash id))
          (transferAssetFromScript env)
          (⟨name, amount, decodeAssetData message, time⟩, encodeDestination env (.keyId id)) ↔
            (name.length ≤ 252 ∧ IsNumber amount ∧ message = [] ∧ time = 0) ∧
              (env.areTransferScriptsSizeDeployed = true ∨ name.length ≤ 62))) ∧
    (∀ (name : Bytes) (flag : Int), NullAssetName name → Fits 8 flag →
      (Matches (serializeCNullAssetTxData name flag >>= buildNullAssetDataScript id)
        (NullAssetTxData.constructTransaction ⟨name, flag⟩
          (getScriptForNullAssetDataDestination (.keyId id)))
        (assetNullDataFromScript env)
        (⟨name, flag⟩, encodeDestination env (.keyId id)) ↔ name.length ≤ 73)) ∧
    (∀ (name : Bytes) (flag : Int), NullAssetName name → Fits 8 flag →
      (Matches (serializeCNullAssetTxData name flag >>= buildGlobalRestrictionScript)
        (NullAssetTxData.constructGlobalRestrictionTransaction ⟨name, flag⟩ [])
        globalAssetNullDataFromScript ⟨name, flag⟩ ↔ name.length ≤ 73)) ∧
    (∀ verifier : Bytes,
      (Matches (buildVerifierOutputScript verifier)
        (constructVerifierTransaction (getStrippedVerifierString verifier) [])
        assetNullVerifierDataFromScript (getStrippedVerifierString verifier) ↔
          (getStrippedVerifierString verifier).length ≤ 74)) :=
  ⟨fun _ _ _ _ _ => newAsset_matches_iff size,
    fun asset nameLength => owner_matches_iff size nameLength asset rfl,
    fun _ _ _ _ _ => reissue_matches_iff size,
    fun _ _ _ _ => transfer_matches_iff size,
    fun _ _ => nullData_matches_iff versions size,
    fun _ _ => globalRestriction_matches_iff,
    verifier_matches_iff⟩

open MainNet

/-- A transfer without a message, of an asset of the main network. -/
theorem web_scripts_match_iff_transfer :
    Matches (transferScript (p2pkhScript alice) (ascii "PHICOIN") (.ofInt 500) [] (.ofInt 0))
      (AssetTransfer.constructTransaction ⟨ascii "PHICOIN", 500, decodeAssetData [], 0⟩
        (payToPublicKeyHash alice))
      (transferAssetFromScript env)
      (⟨ascii "PHICOIN", 500, decodeAssetData [], 0⟩,
        encodeDestination env (.keyId alice)) :=
  ((web_scripts_match_iff env ⟨56, 16, rfl, rfl, by decide⟩ alice
    (by decide)).2.2.2.1 (ascii "PHICOIN") [] 500 0 (by unfold NameLength; decide) (by decide)
      (by decide) (.inl rfl)).mpr ⟨⟨by decide, ⟨500, 0, by decide, rfl⟩, rfl, rfl⟩, .inl rfl⟩

def txidText : Bytes := List.replicate 64 97

/-- An issuance with the id of a transaction is written without the length of the id: the
daemon accepts the text and writes another script, and finds no issuance in the wallet's. -/
theorem txid_is_written_otherwise : AcceptedHash env txidText ∧
    ∃ script, newAssetScript (p2pkhScript alice) (ascii "PHICOIN") (.ofInt 500) 0 1 1 txidText =
        .ok script ∧ script ≠ (issued (ascii "PHICOIN") 500 0 1 txidText).constructTransaction
        (payToPublicKeyHash alice) ∧ assetFromScript env script = none := by
  refine ⟨.inr ⟨.inr ⟨by decide, by decide⟩, by decide +kernel⟩, ?_⟩
  exact ⟨_, rfl, by decide +kernel, by decide +kernel⟩

end Phicoin.Web
