import Phicoin.Lib.Runs
import Phicoin.MainNet
import Phicoin.VersionBits

/-! # Activation of the rules

Each predicate on the deployment of a rule sets a flag the first time it finds the
deployment active at the tip, and answers from the flag ever after.  A node takes
blocks on and off its chain and calls the predicates in between.  As long as no
block is taken off below the activation of a rule whose flag is set, the answers
are those of the headers of the chain. -/

namespace Phicoin

open IndexChain ThresholdChecker MainNet Runs

inductive DeploymentPos where
  | testdummy
  | assets
  | msgRestAssets
  | transferScriptSize
  | enforceValue
  | coinbaseAssets
deriving DecidableEq

structure BIP9Deployment where
  bit : Nat
  nStartTime : Nat
  nTimeout : Nat
  nOverrideMinerConfirmationWindow : Nat
  nOverrideRuleChangeActivationThreshold : Nat

/-- The version bits part of `Consensus::Params`. -/
structure ConsensusParams where
  nRuleChangeActivationThreshold : Nat
  nMinerConfirmationWindow : Nat
  vDeployments : DeploymentPos → BIP9Deployment
  window_pos : 0 < nMinerConfirmationWindow

def versionBitsConditionChecker (params : ConsensusParams) (pos : DeploymentPos) :
    ThresholdChecker where
  period :=
    if 0 < (params.vDeployments pos).nOverrideMinerConfirmationWindow then
      (params.vDeployments pos).nOverrideMinerConfirmationWindow
    else params.nMinerConfirmationWindow
  threshold :=
    if 0 < (params.vDeployments pos).nOverrideRuleChangeActivationThreshold then
      (params.vDeployments pos).nOverrideRuleChangeActivationThreshold
    else params.nRuleChangeActivationThreshold
  beginTime := (params.vDeployments pos).nStartTime
  endTime := (params.vDeployments pos).nTimeout
  condition block :=
    block.nVersion &&& ((1 : UInt32) <<< UInt32.ofNat (params.vDeployments pos).bit) ≠ 0
  period_pos := by
    split
    · assumption
    · exact params.window_pos

/-- The chain, the flag of each deployment and the caches of the states. -/
structure Activation where
  chainActive : IndexChain
  isActive : DeploymentPos → Bool
  versionbitscache : DeploymentPos → ThresholdConditionCache

namespace Activation

def initial : Activation := ⟨[], fun _ => false, fun _ => ∅⟩

variable (params : ConsensusParams)

def versionBitsTipState (node : Activation) (pos : DeploymentPos) : ThresholdState × Activation :=
  let found := (versionBitsConditionChecker params pos).getStateFor node.chainActive
    (node.versionbitscache pos)
  (found.1, { node with versionbitscache := Function.update node.versionbitscache pos found.2 })

def isDeployed (pos : DeploymentPos) (accepts : ThresholdState → Bool) (node : Activation) :
    Bool × Activation :=
  if node.isActive pos then (true, node)
  else
    let (thresholdState, node) := node.versionBitsTipState params pos
    if accepts thresholdState then
      (true, { node with isActive := Function.update node.isActive pos true })
    else (false, node)

def areEnforcedValuesDeployed : Activation → Bool × Activation :=
  isDeployed params .enforceValue fun state => state = .active || state = .lockedIn

def areCoinbaseCheckAssetsDeployed : Activation → Bool × Activation :=
  isDeployed params .coinbaseAssets (· = .active)

def areAssetsDeployed : Activation → Bool × Activation := isDeployed params .assets (· = .active)

def isRip5Active : Activation → Bool × Activation := isDeployed params .msgRestAssets (· = .active)

def areMessagesDeployed : Activation → Bool × Activation := isRip5Active params

def areTransferScriptsSizeDeployed : Activation → Bool × Activation :=
  isDeployed params .transferScriptSize (· = .active)

def areRestrictedAssetsDeployed : Activation → Bool × Activation := isRip5Active params

end Activation

/-- The six predicates. -/
inductive Rule where
  | assets
  | messages
  | restrictedAssets
  | transferScriptsSize
  | enforcedValues
  | coinbaseCheckAssets
deriving DecidableEq

namespace Rule

def all : List Rule :=
  [assets, messages, restrictedAssets, transferScriptsSize, enforcedValues, coinbaseCheckAssets]

theorem mem_all (rule : Rule) : rule ∈ all := by cases rule <;> simp [all]

def pos : Rule → DeploymentPos
  | assets => .assets
  | messages | restrictedAssets => .msgRestAssets
  | transferScriptsSize => .transferScriptSize
  | enforcedValues => .enforceValue
  | coinbaseCheckAssets => .coinbaseAssets

def accepts : Rule → ThresholdState → Bool
  | enforcedValues => fun state => state = .active || state = .lockedIn
  | _ => (· = .active)

theorem accepts_iff {rule : Rule} {state : ThresholdState} :
    rule.accepts state = true ↔ state = .active ∨ (rule = .enforcedValues ∧ state = .lockedIn) := by
  cases rule <;> simp [accepts]

theorem accepts_eq_of_pos {rule other : Rule} (same : rule.pos = other.pos) :
    rule.accepts = other.accepts := by
  cases rule <;> cases other <;> first | rfl | cases same

/-- Whether a rule applies to the block after a chain, by the headers of the chain. -/
def deployedAt (params : ConsensusParams) (rule : Rule) (chain : IndexChain) : Bool :=
  rule.accepts ((versionBitsConditionChecker params rule.pos).stateAfter chain)

theorem deployedAt_cons {params : ConsensusParams} {rule : Rule} {block : BlockIndex}
    {chain : IndexChain} (accepted : Accepted (block :: chain))
    (deployed : rule.deployedAt params chain = true) :
    rule.deployedAt params (block :: chain) = true := by
  rw [deployedAt, accepts_iff] at deployed ⊢
  rcases deployed with active | ⟨enforced, locked⟩
  · exact .inl (active_cons accepted active)
  · rcases lockedIn_cons accepted locked with still | active
    · exact .inr ⟨enforced, still⟩
    · exact .inl active

end Rule

namespace Activation

variable (params : ConsensusParams)

def areDeployed (node : Activation) : Rule → Bool × Activation
  | .assets => areAssetsDeployed params node
  | .messages => areMessagesDeployed params node
  | .restrictedAssets => areRestrictedAssetsDeployed params node
  | .transferScriptsSize => areTransferScriptsSizeDeployed params node
  | .enforcedValues => areEnforcedValuesDeployed params node
  | .coinbaseCheckAssets => areCoinbaseCheckAssetsDeployed params node

theorem areDeployed_eq (node : Activation) (rule : Rule) :
    node.areDeployed params rule = isDeployed params rule.pos rule.accepts node := by
  cases rule <;> rfl

inductive ChainOp where
  | connect (block : BlockIndex)
  | disconnect
  | call (rule : Rule)

def step (node : Activation) : ChainOp → Option Activation
  | .connect block =>
    if acceptsTime node.chainActive block then
      some { node with chainActive := block :: node.chainActive }
    else none
  | .disconnect =>
    match node.chainActive with
    | _ :: previous :: rest => some { node with chainActive := previous :: rest }
    | _ => none
  | .call rule => some (node.areDeployed params rule).2

/-- No block is taken off below the activation of a rule whose flag is set. -/
def keepsActivations (node : Activation) : ChainOp → Bool
  | .disconnect => Rule.all.all fun rule =>
    !node.isActive rule.pos || rule.deployedAt params node.chainActive.tail
  | _ => true

structure FollowsChain (node : Activation) : Prop where
  accepted : Accepted node.chainActive
  caches : ∀ pos, (versionBitsConditionChecker params pos).Caches (node.versionbitscache pos)
  flags : ∀ rule : Rule, node.isActive rule.pos = true →
    rule.deployedAt params node.chainActive = true

def environment (base : Env) (node : Activation) : Env :=
  { base with
    areAssetsDeployed := (areAssetsDeployed params node).1
    isRip5Active := (isRip5Active params node).1
    areTransferScriptsSizeDeployed := (areTransferScriptsSizeDeployed params node).1
    areEnforcedValuesDeployed := (areEnforcedValuesDeployed params node).1
    areCoinbaseCheckAssetsDeployed := (areCoinbaseCheckAssetsDeployed params node).1 }

variable {params}

theorem followsChain_initial : FollowsChain params initial where
  accepted := trivial
  caches _ _ _ absent := by simp [initial] at absent
  flags _ set := by cases set

variable {node : Activation}

theorem versionBitsTipState_spec (follows : FollowsChain params node) (pos : DeploymentPos) :
    (node.versionBitsTipState params pos).1 =
        (versionBitsConditionChecker params pos).stateAfter node.chainActive ∧
      FollowsChain params (node.versionBitsTipState params pos).2 := by
  obtain ⟨state, cached⟩ := getStateFor_spec (follows.caches pos) node.chainActive
  refine ⟨state, follows.accepted, fun other => ?_, follows.flags⟩
  by_cases same : other = pos
  · subst same
    simpa [versionBitsTipState] using cached
  · simpa [versionBitsTipState, same] using follows.caches other

theorem areDeployed_spec (follows : FollowsChain params node) (rule : Rule) :
    (node.areDeployed params rule).1 = rule.deployedAt params node.chainActive ∧
      FollowsChain params (node.areDeployed params rule).2 := by
  obtain ⟨state, kept⟩ := versionBitsTipState_spec follows rule.pos
  rw [areDeployed_eq, isDeployed]
  split
  · rename_i set
    exact ⟨(follows.flags rule set).symm, follows⟩
  · dsimp only
    rw [state]
    split
    · rename_i deployed
      refine ⟨deployed.symm, kept.accepted, kept.caches, fun other set => ?_⟩
      by_cases same : other.pos = rule.pos
      · rw [Rule.deployedAt, Rule.accepts_eq_of_pos same, same]
        exact deployed
      · exact kept.flags other (by simpa [same] using set)
    · rename_i notYet
      exact ⟨by rw [Rule.deployedAt, Bool.eq_false_iff.mpr notYet], kept⟩

theorem FollowsChain.step {next : Activation} {op : ChainOp} (follows : FollowsChain params node)
    (may : node.keepsActivations params op = true) (steps : node.step params op = some next) :
    FollowsChain params next := by
  cases op with
  | call rule =>
    obtain rfl := Option.some.inj steps
    exact (areDeployed_spec follows rule).2
  | connect block =>
    simp only [Activation.step] at steps
    split at steps
    · rename_i accepts
      obtain rfl := Option.some.inj steps
      have accepted : Accepted (block :: node.chainActive) := ⟨accepts, follows.accepted⟩
      exact ⟨accepted, follows.caches,
        fun rule set => Rule.deployedAt_cons accepted (follows.flags rule set)⟩
    · cases steps
  | disconnect =>
    obtain ⟨chain, isActive, caches⟩ := node
    match chain, follows, may, steps with
    | last :: previous :: rest, follows, may, steps =>
      obtain rfl := Option.some.inj steps
      refine ⟨follows.accepted.2, follows.caches, fun rule set => ?_⟩
      have kept := List.all_eq_true.mp may rule rule.mem_all
      have latched : isActive rule.pos = true := set
      simpa [latched] using kept

theorem followsChain_of_run (run : Runs.Run (step params) (keepsActivations params) initial node) :
    FollowsChain params node :=
  run.invariant _ followsChain_initial fun _ _ _ follows may steps => follows.step may steps

end Activation

open Activation

/-- At the end of every history that takes no block off below the activation of a rule
whose flag is set, each predicate answers what the version bits of the chain say; two
such histories that end at the same tip check the next block in the same environment. -/
theorem activation_follows_chain (params : ConsensusParams) {node : Activation}
    (run : Runs.Run (step params) (keepsActivations params) initial node) :
    (∀ rule, (node.areDeployed params rule).1 = rule.deployedAt params node.chainActive) ∧
      ∀ other : Activation, Runs.Run (step params) (keepsActivations params) initial other →
        other.chainActive = node.chainActive →
          ∀ base, environment params base other = environment params base node := by
  have answers := fun rule => (areDeployed_spec (followsChain_of_run run) rule).1
  refine ⟨answers, fun other run' sameTip base => ?_⟩
  have same : ∀ rule, (other.areDeployed params rule).1 = (node.areDeployed params rule).1 := by
    intro rule
    rw [answers, (areDeployed_spec (followsChain_of_run run') rule).1, sameTip]
  have assets := same .assets
  have restricted := same .restrictedAssets
  have transfers := same .transferScriptsSize
  have values := same .enforcedValues
  have coinbase := same .coinbaseCheckAssets
  simp only [areDeployed, areRestrictedAssetsDeployed] at assets restricted transfers values coinbase
  simp only [environment, assets, restricted, transfers, values, coinbase]

/-- The deployments of `CMainParams`; each has a version bit of its own and a period
of one block. -/
def MainNet.consensus : ConsensusParams where
  nRuleChangeActivationThreshold := 160
  nMinerConfirmationWindow := 240
  vDeployments pos :=
    match pos with
    | .testdummy => ⟨28, 1199145601, 1199145601, 1, 1⟩
    | .assets => ⟨6, 0, 1751090400, 1, 1⟩
    | .msgRestAssets => ⟨7, 0, 1751090400, 1, 1⟩
    | .transferScriptSize => ⟨8, 0, 1751090400, 1, 1⟩
    | .enforceValue => ⟨9, 0, 1751090400, 1, 1⟩
    | .coinbaseAssets => ⟨10, 0, 1751090400, 1, 1⟩
  window_pos := by decide

namespace Activation

def block (height : Nat) : BlockIndex := ⟨0x20000040, 1749020400 + 15 * height⟩

def chain : IndexChain := [block 2, block 1, block 0]

def asking : List ChainOp :=
  [.connect (block 0), .connect (block 1), .call .assets, .connect (block 2), .call .assets]

def silent : List ChainOp := [.connect (block 0), .connect (block 1), .connect (block 2)]

def seen (node : Activation) : Option (IndexChain × Bool) :=
  some (node.chainActive, (node.areDeployed MainNet.consensus .assets).1)

end Activation

theorem activation_follows_chain_assets :
    ∃ node other, Runs.Run (step MainNet.consensus) (keepsActivations MainNet.consensus) initial node ∧
      Runs.Run (step MainNet.consensus) (keepsActivations MainNet.consensus) initial other ∧
      node.chainActive = chain ∧ Rule.assets.deployedAt MainNet.consensus chain = true ∧
      environment MainNet.consensus MainNet.env other =
        environment MainNet.consensus MainNet.env node := by
  have asks : (execute (step consensus) (keepsActivations consensus) initial
      asking).bind seen = some (chain, true) := by decide +kernel
  have silence : (execute (step consensus) (keepsActivations consensus) initial
      silent).bind seen = some (chain, true) := by decide +kernel
  obtain ⟨node, run, found⟩ := exists_run_of_execute asks
  obtain ⟨other, run', found'⟩ := exists_run_of_execute silence
  simp only [seen, Option.some.injEq, Prod.mk.injEq] at found found'
  obtain ⟨answers, agree⟩ := activation_follows_chain consensus run
  refine ⟨node, other, run, run', found.1, ?_, agree other run' (found'.1.trans found.1.symm) _⟩
  rw [← found.1, ← answers .assets, found.2]

/-- After the block that made assets active is taken off, a node that had asked says
they are deployed and one that had not says they are not. -/
theorem activation_remembers :
    ∃ node other, Runs.Run (step MainNet.consensus) (fun _ _ => true) initial node ∧
      Runs.Run (step MainNet.consensus) (fun _ _ => true) initial other ∧
      node.chainActive = other.chainActive ∧ (node.areDeployed MainNet.consensus .assets).1 = true ∧
      (other.areDeployed MainNet.consensus .assets).1 = false ∧
      Rule.assets.deployedAt MainNet.consensus node.chainActive = false := by
  have asks : (execute (step consensus) (fun _ _ => true) initial
      (asking ++ [.disconnect])).bind seen = some (chain.tail, true) := by decide +kernel
  have silence : (execute (step consensus) (fun _ _ => true) initial
      (silent ++ [.disconnect])).bind seen = some (chain.tail, false) := by decide +kernel
  obtain ⟨node, run, found⟩ := exists_run_of_execute asks
  obtain ⟨other, run', found'⟩ := exists_run_of_execute silence
  simp only [seen, Option.some.injEq, Prod.mk.injEq] at found found'
  refine ⟨node, other, run, run', found.1.trans found'.1.symm, found.2, found'.2, ?_⟩
  rw [found.1]
  decide +kernel

end Phicoin
