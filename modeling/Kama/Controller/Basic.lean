import Kama.Foundations.Api
import Kama.Artifact.Selection

/-!
# Controllers

What the controllers share: their errors, the calls they make to the API server, and the names and
labels of `common.go`. A controller is a program over the calls of `Api`, so every interleaving of
the calls of several controllers, with failures and restarts between any two calls, is a run of
the system of their programs.
-/

namespace Kama.Controller

open Bytes Api Program

inductive Err
  | api (err : ApiErr)
  /-- `errors.New` and `fmt.Errorf` -/
  | text (format : String) (arguments : List Bytes)
  /-- `fmt.Errorf` around an error -/
  | wrap (format : String) (arguments : List Bytes) (err : Err)
  deriving DecidableEq, Repr

section Calls

variable {κ β : Type}

/-- A piece of controller code. -/
abbrev Task (κ β : Type) := ExceptT Err (Prog (Op κ β) (Res κ β))

/-- `time.Now`, in nanoseconds. -/
def timeNow : Task κ β Nat := ExceptT.lift (Prog.perform Op.now)

def getObject (key : κ) : Task κ β (Except ApiErr (Object κ β)) :=
  ExceptT.lift (Prog.perform (Op.get key))

def listObjects (selected : κ → Bool) : Task κ β (Except ApiErr (List (Object κ β))) :=
  ExceptT.lift (Prog.perform (Op.list selected))

def createObject (key : κ) (finalizers : List String) (body : β) :
    Task κ β (Except ApiErr (Object κ β)) :=
  ExceptT.lift (Prog.perform (Op.create key finalizers body))

def updateObject (object : Object κ β) : Task κ β (Except ApiErr (Object κ β)) :=
  ExceptT.lift (Prog.perform (Op.update object))

def deleteObject (key : κ) (precondition : Option (Nat × Nat)) : Task κ β (Except ApiErr Unit) :=
  ExceptT.lift (Prog.perform (Op.delete key precondition))

def deleteObjectForeground (key : κ) (precondition : Option (Nat × Nat)) :
    Task κ β (Except ApiErr Unit) :=
  ExceptT.lift (Prog.perform (Op.deleteForeground key precondition))

end Calls

/-! ## Names and labels -/

def kamaName : Bytes := ascii "kama"

def artifactImportComponent : Bytes := ascii "artifact-import"

def isLabelByte (b : UInt8) : Bool := isDigit b || isLower b || b == 45

def isLabelEnd (b : UInt8) : Bool := isDigit b || isLower b

/-- `[a-z0-9]([-a-z0-9]*[a-z0-9])?`. -/
def dns1123Label (s : Bytes) : Bool :=
  s.all isLabelByte && s.head?.any isLabelEnd && s.getLast?.any isLabelEnd

def trimDashes (s : Bytes) : Bytes := s.dropWhile (· == 45)

/-- Without the dashes at the end. -/
def trimRightDashes (s : Bytes) : Bytes := (trimDashes s.reverse).reverse

/-- The readable part of a generated name; object names are ASCII. -/
def namePrefixOf (prefixLabel : Bytes) : Bytes :=
  let clean := trimRightDashes (trimDashes (prefixLabel.map Artifact.toLower))
  let clean := if dns1123Label clean && decide (clean.length ≤ 63) then clean else kamaName
  if 50 < clean.length then trimRightDashes (clean.take 50) else clean

def deterministicName (prefixLabel : Bytes) (values : List Bytes) : Bytes :=
  namePrefixOf prefixLabel ++ ascii "-" ++
    (Artifact.hexSHA256 (values.flatMap fun value => value ++ [0])).take 12

def isLabelValueByte (b : UInt8) : Bool := isAlphanumeric b || b == 45 || b == 95 || b == 46

/-- `(([A-Za-z0-9][-A-Za-z0-9_.]*)?[A-Za-z0-9])?`, of at most 63 bytes. -/
def labelValue (s : Bytes) : Bool :=
  decide (s.length ≤ 63) && s.all isLabelValueByte &&
    (s.isEmpty || s.head?.any isAlphanumeric && s.getLast?.any isAlphanumeric)

/-- Labels with dots between them, of at most 253 bytes in all. -/
def dns1123Subdomain (s : Bytes) : Bool :=
  decide (s.length ≤ 253) && (s.splitOn 46).all dns1123Label

/-- The rules of the apimachinery library for names: each lists what it has to say against a value.
Which values it accepts is documented; the messages are not. -/
structure NameRules where
  isQualifiedName : Bytes → List String
  isValidLabelValue : Bytes → List String
  isDNS1123Subdomain : Bytes → List String
  isConfigMapKey : Bytes → List String
  isValidLabelValue_eq_nil : ∀ s, isValidLabelValue s = [] ↔ labelValue s = true
  isDNS1123Subdomain_eq_nil : ∀ s, isDNS1123Subdomain s = [] ↔ dns1123Subdomain s = true

def boundedLabelValue (rules : NameRules) (value : Bytes) : Bytes :=
  if rules.isValidLabelValue value = [] then value else deterministicName (ascii "object") [value]

/-- Rules with one message. -/
def sampleRules : NameRules where
  isQualifiedName _ := []
  isValidLabelValue s := if labelValue s then [] else ["must be a label value"]
  isDNS1123Subdomain s := if dns1123Subdomain s then [] else ["must be a subdomain"]
  isConfigMapKey s := if s.all isLabelValueByte then [] else ["must be a key"]
  isValidLabelValue_eq_nil s := by simp
  isDNS1123Subdomain_eq_nil s := by simp

end Kama.Controller
