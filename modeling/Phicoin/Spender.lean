import Phicoin.Accepted
import Phicoin.Interpreter
import Phicoin.MainNet

/-! # Who can spend an asset output

`IsAssetScript` looks at the byte at position 25 and behind it, and the owner of
the output is read from the positions 3 to 22.  Spending is decided by running
the bytes before position 25: `OP_PHI_ASSET` does nothing and ends the script.
Only when these bytes are the usual pay-to-key-hash script are owner and spender
the same. -/

namespace Phicoin

open Check Interpreter List

/-- Every accepted spending of the output carries a key with the given hash and a
signature by that key. -/
def OwnerSigns (crypto : Crypto) (checker : SignatureChecker) (flags : ScriptFlags)
    (scriptPubKey id : Bytes) : Prop :=
  ∀ scriptSig witness, verifyScript crypto checker flags scriptSig scriptPubKey witness = .ok () →
    ∃ stack sig key, evalScript ⟨crypto, checker, flags, .base⟩ [] scriptSig = .ok stack ∧
      sig ∈ stack ∧ key ∈ stack ∧ crypto.hash160 key = id ∧
      checker.checkSig sig key (findAndDelete scriptPubKey (pushData sig)) .base = true

section

variable {ctx : Context} {machine next final : Machine}
  {fuel : Nat}

theorem evalLoop_cons {script : Bytes} (nonempty : script ≠ [])
    (run : evalLoop ctx fuel script machine = .ok final) :
    ∃ fuel' opcode operand rest next, getOp script = some (opcode, operand, rest) ∧
      step ctx opcode operand rest machine = .ok next ∧
      evalLoop ctx fuel' rest next = .ok final := by
  match fuel, script with
  | _, [] => exact absurd rfl nonempty
  | 0, _ :: _ => simp [evalLoop] at run
  | fuel' + 1, first :: others =>
    rw [evalLoop] at run
    obtain ⟨⟨opcode, operand, rest⟩, read, run⟩ := bind_eq_ok.mp run
    obtain ⟨next, stepped, run⟩ := bind_eq_ok.mp run
    rw [require?_eq_ok] at read
    exact ⟨fuel', opcode, operand, rest, next, read, stepped, run⟩

variable {opcode : UInt8} {rest : Bytes}

theorem step_ok {operand : Bytes} (stepped : step ctx opcode operand rest machine = .ok next) :
    ∃ count, perform ctx opcode operand rest { machine with nOpCount := count } = .ok next := by
  unfold step at stepped
  obtain ⟨_, _, _, _, _, _, stepped⟩ := ok_bind₃ stepped
  obtain ⟨next', performed, _, _, stepped⟩ := ok_bind₂ stepped
  obtain rfl := pure_eq_ok.mp stepped
  exact ⟨_, performed⟩

variable {others : Bytes}

theorem getOp_cons (isOp : opPushdata4 < opcode)
    (notAsset : opcode ≠ opPhiAsset) : getOp (opcode :: others) = some (opcode, [], others) := by
  have notSmall : ¬ opcode < opPushdata1 := by
    simp only [opPushdata4, opPushdata1, UInt8.lt_iff_toNat_lt] at isOp ⊢
    simp at isOp ⊢
    omega
  have notPushdata : ∀ limit ≤ opPushdata4, opcode ≠ limit := by
    rintro limit below rfl
    exact absurd isOp (UInt8.not_lt.mpr below)
  rw [getOp, if_neg notSmall, if_neg (notPushdata _ (by decide)),
    if_neg (notPushdata _ (by decide)), if_neg (notPushdata _ (by decide)), if_neg notAsset]

theorem evalLoop_execute
    (isOp : opPushdata4 < opcode) (notAsset : opcode ≠ opPhiAsset) (taken : machine.vfExec = [])
    (run : evalLoop ctx fuel (opcode :: others) machine = .ok final) : ∃ fuel' count next,
      execute ctx (decode opcode) true others { machine with nOpCount := count } = .ok next ∧
      evalLoop ctx fuel' others next = .ok final := by
  obtain ⟨fuel', opcode', operand, rest, next, read, stepped, run⟩ := evalLoop_cons (by simp) run
  rw [getOp_cons isOp notAsset] at read
  cases read
  obtain ⟨count, performed⟩ := step_ok stepped
  refine ⟨fuel', count, next, ?_, run⟩
  simpa [perform, taken, UInt8.not_le.mpr isOp] using performed

theorem evalLoop_push {size : UInt8} {data : Bytes}
    (small : size < opPushdata1) (exact : data.length = size.toNat) (taken : machine.vfExec = [])
    (run : evalLoop ctx fuel (size :: data ++ others) machine = .ok final) :
    ∃ fuel' count, evalLoop ctx fuel' others
      { machine with nOpCount := count, stack := data :: machine.stack } = .ok final := by
  obtain ⟨fuel', opcode, operand, rest, next, read, stepped, run⟩ := evalLoop_cons (by simp) run
  have reads : getOp (size :: data ++ others) = some (size, data, others) := by
    rw [cons_append, getOp, if_pos small, takeOperand, if_neg (by simp [exact]), ← exact]
    simp
  rw [reads] at read
  cases read
  obtain ⟨count, performed⟩ := step_ok stepped
  refine ⟨fuel', count, ?_⟩
  have isPush : size ≤ opPushdata4 :=
    UInt8.le_of_lt (UInt8.lt_trans small (by decide))
  simp only [perform, taken, all_nil, Bool.true_and, isPush, decide_true, if_true] at performed
  obtain ⟨_, _, pushed⟩ := bind_eq_ok.mp performed
  obtain rfl := pure_eq_ok.mp pushed
  simpa [taken] using run

theorem evalLoop_phiAsset (taken : machine.vfExec = [])
    (run : evalLoop ctx fuel (opPhiAsset :: others) machine = .ok final) :
    final.stack = machine.stack := by
  obtain ⟨fuel', opcode, operand, rest, next, read, stepped, run⟩ := evalLoop_cons (by simp) run
  have reads : getOp (opPhiAsset :: others) = some (opPhiAsset, others, []) := rfl
  rw [reads] at read
  cases read
  obtain ⟨count, performed⟩ := step_ok stepped
  have decodes : decode opPhiAsset = .phiAsset := rfl
  have notPush : ¬ opPhiAsset ≤ opPushdata4 := by decide
  simp only [perform, taken, all_nil, Bool.true_and, notPush, decide_false, Bool.true_or,
    Bool.false_eq_true, if_true, if_false, decodes, execute, Except.ok.injEq] at performed
  subst performed
  simp only [evalLoop, Except.ok.injEq] at run
  rw [← run]

variable {fExec : Bool}

theorem execute_dup (executed : execute ctx (.stack .dup) fExec rest machine = .ok next) :
    ∃ x below, machine.stack = x :: below ∧ next = { machine with stack := x :: x :: below } := by
  obtain ⟨stack, altstack, vfExec, nOpCount, codeHash⟩ := machine
  cases stack with
  | nil => cases executed
  | cons x below =>
    cases executed
    exact ⟨x, below, rfl, rfl⟩

theorem execute_hash160 (executed : execute ctx (.hash .hash160) fExec rest machine = .ok next) :
    ∃ x below, machine.stack = x :: below ∧
      next = { machine with stack := ctx.crypto.hash160 x :: below } := by
  obtain ⟨stack, altstack, vfExec, nOpCount, codeHash⟩ := machine
  cases stack with
  | nil => cases executed
  | cons x below =>
    cases executed
    exact ⟨x, below, rfl, rfl⟩

theorem execute_equalverify (executed : execute ctx (.equal true) fExec rest machine = .ok next) :
    ∃ x below, machine.stack = x :: x :: below ∧ next = { machine with stack := below } := by
  obtain ⟨stack, altstack, vfExec, nOpCount, codeHash⟩ := machine
  match stack with
  | [] => cases executed
  | [_] => cases executed
  | x2 :: x1 :: below =>
    by_cases same : x1 = x2
    · subst same
      simp only [execute, pushVerdict, decide_true] at executed
      cases executed
      exact ⟨x1, below, rfl, rfl⟩
    · simp only [execute, pushVerdict, same, decide_false] at executed
      cases executed

theorem execute_checksig (executed : execute ctx (.checkSig false) fExec rest machine = .ok next) :
    ∃ key sig below, machine.stack = key :: sig :: below ∧ next = { machine with
        stack := vchBool (ctx.checker.checkSig sig key (scriptCode ctx machine [sig])
          ctx.sigversion) :: below } := by
  obtain ⟨stack, altstack, vfExec, nOpCount, codeHash⟩ := machine
  match stack with
  | [] => cases executed
  | [_] => cases executed
  | key :: sig :: below =>
    simp only [execute, checkSigOp] at executed
    obtain ⟨final, checked, pushed⟩ := bind_eq_ok.mp executed
    obtain ⟨_, _, _, _, _, _, verdict⟩ := ok_bind₃ checked
    cases verdict
    cases pushed
    exact ⟨key, sig, below, rfl, rfl⟩

theorem evalScript_payToKeyHash {stack result : List Bytes} {id tail script : Bytes}
    (shape : script = opDup :: opHash160 :: (0x14 :: id ++ opEqualverify :: opChecksig ::
      opPhiAsset :: tail)) (length : id.length = 20) (base : ctx.sigversion = .base)
    (run : evalScript ctx stack script = .ok result) :
    ∃ key sig below, stack = key :: sig :: below ∧ ctx.crypto.hash160 key = id ∧
      result = vchBool (ctx.checker.checkSig sig key (findAndDelete script (pushData sig))
        .base) :: below := by
  unfold evalScript at run
  obtain ⟨_, _, final, loop, _, _, done⟩ := ok_bind₃ run
  obtain rfl := pure_eq_ok.mp done
  rw [shape] at loop
  obtain ⟨_, _, _, dup, loop⟩ := evalLoop_execute (by decide) (by decide) rfl loop
  obtain ⟨key, below, hasKey, rfl⟩ := execute_dup dup
  obtain ⟨_, _, _, hash, loop⟩ := evalLoop_execute (by decide) (by decide) rfl loop
  obtain ⟨_, _, same, rfl⟩ := execute_hash160 hash
  cases same
  obtain ⟨_, _, loop⟩ := evalLoop_push (by decide) length rfl loop
  obtain ⟨_, _, _, equal, loop⟩ := evalLoop_execute (by decide) (by decide) rfl loop
  obtain ⟨_, _, same, rfl⟩ := execute_equalverify equal
  simp only [List.cons.injEq] at same
  obtain ⟨rfl, hashes, rfl⟩ := same
  obtain ⟨_, _, _, check, loop⟩ := evalLoop_execute (by decide) (by decide) rfl loop
  obtain ⟨_, sig, rest, pair, rfl⟩ := execute_checksig check
  cases pair
  refine ⟨key, sig, rest, hasKey, hashes, ?_⟩
  rw [evalLoop_phiAsset rfl loop, shape]
  simp only [scriptCode, base, if_true, foldl_cons, foldl_nil]

end

variable {script : Bytes} {info : AssetScript}

theorem length_of_isAssetScript (found : isAssetScript script = some info) :
    31 < script.length ∧ byteAt script 25 = opPhiAsset := by
  unfold isAssetScript at found
  split at found
  · rename_i bounds
    simpa using bounds
  · cases found

theorem extractDestination_asset {env : Env} (found : isAssetScript script = some info) :
    extractDestination env script = .keyId ((script.drop 3).take 20) := by
  have notP2sh : isPayToScriptHash script = false := by
    have long : script.length ≠ 23 := by
      have := (length_of_isAssetScript found).1
      omega
    simp [isPayToScriptHash, long]
  have solved : solver script = some (info.nType, [(script.drop 3).take 20]) := by
    simp [solver, notP2sh, found]
  rw [extractDestination, solved]
  rcases isAssetScript_kind found with ⟨kind, _⟩ | kind | ⟨kind, _⟩ <;> simp [kind]

theorem shape_of_payToKeyHash (found : isAssetScript script = some info)
    (usual : isPayToPublicKeyHash (script.take 25) = true) :
    ∃ tail, script = opDup :: opHash160 :: (0x14 :: (script.drop 3).take 20 ++
      opEqualverify :: opChecksig :: opPhiAsset :: tail) := by
  obtain ⟨long, phi⟩ := length_of_isAssetScript found
  obtain ⟨x0, x1, x2, rest, rfl⟩ : ∃ x0 x1 x2 rest, script = x0 :: x1 :: x2 :: rest := by
    match script, long with
    | x0 :: x1 :: x2 :: rest, _ => exact ⟨x0, x1, x2, rest, rfl⟩
  obtain ⟨y0, y1, y2, tail, dropped⟩ : ∃ y0 y1 y2 tail, rest.drop 20 = y0 :: y1 :: y2 :: tail := by
    have enough : 3 ≤ (rest.drop 20).length := by
      simp only [length_cons, length_drop] at long ⊢
      omega
    match rest.drop 20, enough with
    | y0 :: y1 :: y2 :: tail, _ => exact ⟨y0, y1, y2, tail, rfl⟩
  have at20 : ∀ i, rest[20 + i]? = (y0 :: y1 :: y2 :: tail)[i]? := by
    intro i
    rw [← dropped, getElem?_drop]
  have y0Eq := at20 0
  have y1Eq := at20 1
  have y2Eq := at20 2
  simp only [Nat.reduceAdd, Nat.add_zero, getElem?_cons_zero, getElem?_cons_succ] at y0Eq y1Eq y2Eq
  simp [isPayToPublicKeyHash, byteAt, y0Eq, y1Eq] at usual
  simp [byteAt, y2Eq] at phi
  obtain ⟨⟨⟨⟨⟨_, rfl⟩, rfl⟩, rfl⟩, rfl⟩, rfl⟩ := usual
  subst phi
  refine ⟨tail, ?_⟩
  simp only [drop_succ_cons, drop_zero, cons_append]
  rw [← dropped, take_append_drop]

/-- An asset output with the usual first bytes is spent only with a signature by
the key its destination names. -/
theorem ownerSigns_of_payToKeyHash (env : Env) (crypto : Crypto) (checker : SignatureChecker)
    (flags : ScriptFlags) (script : Bytes) (info : AssetScript)
    (found : isAssetScript script = some info)
    (usual : isPayToPublicKeyHash (script.take 25) = true) :
    ∃ id, extractDestination env script = .keyId id ∧
      OwnerSigns crypto checker flags script id := by
  refine ⟨(script.drop 3).take 20, extractDestination_asset found, ?_⟩
  intro scriptSig witness accepted
  obtain ⟨tail, shape⟩ := shape_of_payToKeyHash found usual
  have length : ((script.drop 3).take 20).length = 20 := by
    have long := (length_of_isAssetScript found).1
    simp only [length_take, length_drop]
    omega
  unfold verifyScript at accepted
  obtain ⟨_, _, stackCopy, signed, stack, run, accepted⟩ := ok_bind₃ accepted
  obtain ⟨_, top, _⟩ := bind_eq_ok.mp accepted
  obtain ⟨key, sig, below, rfl, hashes, rfl⟩ := evalScript_payToKeyHash shape length rfl run
  refine ⟨key :: sig :: below, sig, key, signed, by simp, by simp, hashes, ?_⟩
  -- a failed check leaves the false value on top
  cases verdict : checker.checkSig sig key (findAndDelete script (pushData sig)) .base with
  | true => rfl
  | false =>
    rw [verdict] at top
    cases top

open MainNet

namespace Spender

def transferBehind (start : Bytes) : TxOut :=
  ⟨0, AssetTransfer.constructTransaction ⟨ascii "TOKEN", 5, [], 0⟩ start⟩

/-- The public key of the secret 1, the generator of the curve, and its hash. -/
def key : Bytes :=
  [2, 121, 190, 102, 126, 249, 220, 187, 172, 85, 160, 98, 149, 206, 135, 11, 7, 2, 155, 252, 219,
   45, 206, 40, 217, 89, 242, 129, 91, 22, 248, 23, 152]
def keyHash : Bytes :=
  [117, 30, 118, 232, 25, 145, 150, 212, 84, 148, 28, 69, 209, 179, 163, 35, 241, 67, 59, 214]

/-- Its signature of the transaction that spends the coin `(7, 0)`, five units
held by that key, into a transfer of the same amount to Alice. -/
def sig : Bytes :=
  [48, 68, 2, 32, 63, 201, 93, 198, 105, 127, 93, 214, 179, 238, 55, 57, 59, 32, 112, 210, 52, 199,
   236, 236, 143, 255, 111, 33, 253, 69, 1, 92, 6, 44, 29, 93, 2, 32, 90, 63, 19, 16, 219, 201, 210,
   163, 87, 43, 234, 122, 241, 63, 57, 47, 186, 120, 134, 241, 75, 153, 94, 212, 30, 101, 243, 95,
   74, 216, 196, 225, 1]

def held : Bytes := (transferBehind (payToPublicKeyHash keyHash)).scriptPubKey

/-- The crypto library and the checker of that transaction, at the values used. -/
def crypto : Crypto where
  ripemd160 := fun _ => []
  sha1 := fun _ => []
  sha256 := fun _ => []
  hash160 := fun data => if data = key then keyHash else []
  hash256 := fun _ => []
  checkLowS := fun _ => true

def checker : SignatureChecker where
  checkSig := fun s k code _ => s = sig && k = key && code = held
  checkLockTime := fun _ => false
  checkSequence := fun _ => false

def openStart : Bytes := [0x61, 0x61] ++ pushData alice ++ [0x61, 0x61]

def openOutput : TxOut := transferBehind openStart

def view : CoinsView := coins [(⟨7, 0⟩, transfer (ascii "TOKEN") 5)]

def state : AssetState := recording [⟨ascii "TOKEN", 5, 8, 0, 0, []⟩]

end Spender

open Spender

/-- The key's own signature spends its output. -/
theorem ownerSigns_of_payToKeyHash_spent :
    verifyScript crypto checker blockScriptFlags (pushData sig ++ pushData key) held [] = .ok () ∧
      ∃ id, extractDestination env held = .keyId id ∧
        OwnerSigns crypto checker blockScriptFlags held id :=
  ⟨by decide +kernel, ownerSigns_of_payToKeyHash env crypto checker blockScriptFlags held
    ⟨.transferAsset, false, 31⟩ (by decide +kernel) (by decide +kernel)⟩

/-- An output that counts as Alice's is spent by an empty input script. -/
theorem ownerSigns_fails :
    checkTransaction env (transaction 8 [⟨7, 0⟩] [openOutput]) true false true =
        .ok () ∧ (checkTxAssets env state .empty .empty view
        (transaction 8 [⟨7, 0⟩] [openOutput]) false 0 0).passed = true ∧
      extractDestination env openOutput.scriptPubKey = .keyId alice ∧
      ∀ crypto checker,
        verifyScript crypto checker blockScriptFlags [] openOutput.scriptPubKey [] = .ok () ∧
          ¬ OwnerSigns crypto checker blockScriptFlags openOutput.scriptPubKey alice := by
  refine ⟨by decide +kernel, by decide +kernel, by decide +kernel, fun crypto checker => ?_⟩
  have accepted : verifyScript crypto checker blockScriptFlags [] openOutput.scriptPubKey [] =
      .ok () := by rfl
  refine ⟨accepted, fun signs => ?_⟩
  obtain ⟨stack, sig, key, run, signed, _⟩ := signs [] [] accepted
  cases run
  cases signed

end Phicoin
