import Phicoin.AssetNames
import Phicoin.Standard

/-! # Verifier strings

The boolean expressions over qualifiers that guard a restricted asset: the
evaluator, which splits a formula at its top-level operators, and the syntax
check of a verifier string.  An evaluation that throws has no value. -/

namespace Phicoin

namespace LibBoolEE

def belongsToName (c : UInt8) : Bool :=
  between 'A' 'Z' c || between 'a' 'z' c || between '0' '9' c || oneOf "_#." c

def removeWhitespaces (source : Bytes) : Bytes := source.filter fun c => !isSpace c

def removeCharacter (source : Bytes) (c : UInt8) : Bytes := source.filter (· ≠ c)

/-- State of the scan: the part since the last split (none before the first
operand), the open parentheses, and the finished parts. -/
structure Scan where
  current : Option Bytes
  parity : Int
  parts : List Bytes

def orChar : UInt8 := 124
def andChar : UInt8 := 38

def operandStart (c : UInt8) : Bool := belongsToName c || oneOf "!" c

/-- One character of `singleParse`.  A part that has started takes every
character up to the splitting operator. -/
def scanStep (op : UInt8) (scan : Scan) (c : UInt8) : Option Scan :=
  let extended := scan.current.map (· ++ [c])
  if oneOf ")" c then some { scan with current := extended, parity := scan.parity - 1 }
  else if oneOf "(" c then
    some { scan with current := some (extended.getD [c]), parity := scan.parity + 1 }
  else if scan.parity = 0 then
    match scan.current with
    | none => some { scan with current := if operandStart c then some [c] else none }
    | some part =>
      if operandStart c then some { scan with current := extended }
      else if c = op then some { scan with current := some [], parts := scan.parts ++ [part] }
      else if oneOf "&|" c then some { scan with current := extended }
      else none
  else some { scan with current := extended }

def singleParse (formula : Bytes) (op : UInt8) : Option (List Bytes) :=
  match formula.foldlM (scanStep op) ⟨none, 0, []⟩ with
  | none => none
  | some scan =>
    if scan.parity ≠ 0 then none else some (scan.parts ++ scan.current.toList)

/-- `resolve`, whose recursive calls are on shorter formulas: as much fuel as
the formula has characters, and one more, is enough. -/
def resolve (valuation : Bytes → Option Bool) : Nat → Bytes → Option Bool
  | 0, _ => none
  | fuel + 1, formula =>
    let source := removeWhitespaces formula
    if source = [] then none
    else match singleParse source orChar with
      | none => none
      | some [_] =>
        match singleParse source andChar with
        | none => none
        | some [] => none
        | some [_] =>
          if oneOf "!" (source.headD 0) then
            (resolve valuation fuel (source.drop 1)).map not
          else if oneOf "(" (source.headD 0) then
            resolve valuation fuel ((source.drop 1).take (source.length - 2))
          else if source = ascii "1" then some true
          else if source = ascii "0" then some false
          else valuation source
        | some parts => (parts.mapM (resolve valuation fuel)).map fun values => values.all id
      | some [] => none
      | some parts => (parts.mapM (resolve valuation fuel)).map fun values => values.any id

end LibBoolEE

def verifierTrue : Bytes := ascii "true"

/-- The runs of name characters, in order: the matches of `[A-Z0-9_.]+`. -/
def nameRuns : Bytes → List Bytes
  | [] => []
  | c :: rest =>
    if between 'A' 'Z' c || between '0' '9' c || oneOf "_." c then
      match rest, nameRuns rest with
      | d :: _, run :: runs =>
        if between 'A' 'Z' d || between '0' '9' d || oneOf "_." d then (c :: run) :: runs
        else [c] :: run :: runs
      | _, runs => [c] :: runs
    else nameRuns rest

def extractVerifierStringQualifiers (verifier : Bytes) : List Bytes := (nameRuns verifier).dedup

def getStrippedVerifierString (verifier : Bytes) : Bytes :=
  LibBoolEE.removeCharacter (LibBoolEE.removeWhitespaces verifier) qualifierChar

/-- `CheckVerifierString` with the qualifiers it found. -/
def checkVerifierString (verifier : Bytes) : Check (List Bytes) :=
  if verifier = verifierTrue then .ok []
  else do
    Check.require (verifier ≠ []) "Verifier string can not be empty. To default to true, use \"true\""
    let strippedVerifier := getStrippedVerifierString verifier
    Check.require (strippedVerifier.length ≤ 80)
      "Verifier string has length greater than 80 after whitespaces and '#' are removed"
    let qualifiers := extractVerifierStringQualifiers strippedVerifier
    forM qualifiers fun qualifier =>
      Check.require (isQualifierNameValid (qualifierChar :: qualifier))
        ("bad-txns-null-verifier-invalid-asset-name-" ++ textOf qualifier)
    let valuation := fun name => if qualifiers.contains name then some true else none
    let _ ← Check.require? (LibBoolEE.resolve valuation (verifier.length + 1) verifier)
      "bad-txns-null-verifier-failed-syntax-check"
    return qualifiers

/-- `CheckVerifierAssetTxOut` -/
def checkVerifierTxOut (verifier : Option Bytes) : Check Unit := do
  let verifier ← Check.require? verifier "bad-txns-null-verifier-data-serialization"
  Check.require (!verifier.contains 32) "bad-txns-null-verifier-data-contained-whitespaces"
  Check.require (!verifier.contains qualifierChar)
    "bad-txns-null-verifier-data-contained-qualifier-character-#"
  let _ ← checkVerifierString verifier

end Phicoin
