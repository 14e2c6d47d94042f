import Mathlib.Data.List.Sort
import Kama.Foundations.Json

/-!
# Volumes

What `common.go` reads from a bound volume: the access modes of its claim, the scope of its mounts
and the node affinity of the volume, in a normal form that does not depend on the order in which
the API lists them.

`volumeNodeAffinitiesCompatible` looks for a node that two volumes can both be mounted on. It
collects what the requirements of a pair of terms say about each label or field in a
`SelectorConstraint` and asks whether a value is left.
-/

namespace Kama.Controller

open Bytes Json

inductive AccessMode
  | readWriteOnce
  | readOnlyMany
  | readWriteMany
  | readWriteOncePod
  deriving DecidableEq, Repr

def AccessMode.text : AccessMode → Bytes
  | .readWriteOnce => ascii "ReadWriteOnce"
  | .readOnlyMany => ascii "ReadOnlyMany"
  | .readWriteMany => ascii "ReadWriteMany"
  | .readWriteOncePod => ascii "ReadWriteOncePod"

inductive MountScope
  | multiNode
  | singleNode
  | singlePod
  deriving DecidableEq, Repr

inductive VolumeMode
  | filesystem
  | block
  deriving DecidableEq, Repr

/-- Without the repetitions of a sorted list. -/
def compact {α : Type} [DecidableEq α] (l : List α) : List α := l.destutter (· ≠ ·)

def normalizeAccessModes (modes : List AccessMode) : List AccessMode :=
  compact (modes.mergeSort fun a b => decide (a.text ≤ b.text))

def normalizeMountScope (modes : List AccessMode) : Option MountScope :=
  if .readWriteOncePod ∈ modes then some .singlePod
  else if .readWriteOnce ∈ modes then some .singleNode
  else if modes.any fun mode => mode = .readWriteMany ∨ mode = .readOnlyMany then some .multiNode
  else none

def hasWritableMode (modes : List AccessMode) : Bool :=
  modes.any fun mode =>
    mode = .readWriteMany ∨ mode = .readWriteOnce ∨ mode = .readWriteOncePod

/-! ## Node affinity -/

inductive NodeSelectorOperator
  | opIn
  | opNotIn
  | opExists
  | opDoesNotExist
  | opGt
  | opLt
  deriving DecidableEq, Repr

def NodeSelectorOperator.text : NodeSelectorOperator → Bytes
  | .opIn => ascii "In"
  | .opNotIn => ascii "NotIn"
  | .opExists => ascii "Exists"
  | .opDoesNotExist => ascii "DoesNotExist"
  | .opGt => ascii "Gt"
  | .opLt => ascii "Lt"

structure NodeSelectorRequirement where
  key : Bytes
  operator : NodeSelectorOperator
  values : List Bytes
  deriving DecidableEq, Repr

structure NodeSelectorTerm where
  matchExpressions : List NodeSelectorRequirement
  matchFields : List NodeSelectorRequirement
  deriving DecidableEq, Repr

/-- A `VolumeNodeAffinity`, with the terms of its required node selector. -/
structure VolumeNodeAffinity where
  required : Option (List NodeSelectorTerm)
  deriving DecidableEq, Repr

def NodeSelectorRequirement.toJson (r : NodeSelectorRequirement) : Json :=
  .obj ([(ascii "key", .str r.key), (ascii "operator", .str r.operator.text)] ++
    omitempty (r.values = []) (ascii "values") (strings r.values))

def NodeSelectorTerm.toJson (t : NodeSelectorTerm) : Json :=
  .obj (omitempty (t.matchExpressions = []) (ascii "matchExpressions")
      (.arr (t.matchExpressions.map NodeSelectorRequirement.toJson)) ++
    omitempty (t.matchFields = []) (ascii "matchFields")
      (.arr (t.matchFields.map NodeSelectorRequirement.toJson)))

/-- `strings.Join(values, "\x00")`. -/
def joinNul (values : List Bytes) : Bytes := [(0 : UInt8)].intercalate values

/-- The order in which `normalizeRequirements` lists requirements. -/
def NodeSelectorRequirement.le (a b : NodeSelectorRequirement) : Bool :=
  if a.key ≠ b.key then decide (a.key ≤ b.key)
  else if a.operator ≠ b.operator then decide (a.operator.text ≤ b.operator.text)
  else decide (joinNul a.values ≤ joinNul b.values)

def normalizeRequirements (requirements : List NodeSelectorRequirement) :
    List NodeSelectorRequirement :=
  compact ((requirements.map fun r =>
    { r with values := compact (r.values.mergeSort fun a b => decide (a ≤ b)) }).mergeSort
      NodeSelectorRequirement.le)

def NodeSelectorTerm.normalize (t : NodeSelectorTerm) : NodeSelectorTerm :=
  ⟨normalizeRequirements t.matchExpressions, normalizeRequirements t.matchFields⟩

/-- `normalizeVolumeNodeAffinity` of an affinity that is there. -/
def VolumeNodeAffinity.normalize (affinity : VolumeNodeAffinity) : VolumeNodeAffinity :=
  ⟨affinity.required.map fun terms =>
    ((terms.map NodeSelectorTerm.normalize).mergeSort fun a b =>
      decide (encode a.toJson ≤ encode b.toJson)).destutter fun a b =>
        encode a.toJson ≠ encode b.toJson⟩

def normalizeVolumeNodeAffinity (affinity : Option VolumeNodeAffinity) :
    Option VolumeNodeAffinity :=
  affinity.map VolumeNodeAffinity.normalize

/-! ## Compatible affinities -/

/-- What is known about the value of one label or field. -/
structure SelectorConstraint where
  /-- whether it has to be there or has to be missing -/
  existence : Option Bool
  allowed : Option (List Bytes)
  excluded : List Bytes
  lower : Option Int
  upper : Option Int
  deriving DecidableEq, Repr

def SelectorConstraint.empty : SelectorConstraint := ⟨none, none, [], none, none⟩

/-- `strconv.ParseInt(value, 10, 64)`. -/
def parseInt : Bytes → Option Int
  | 43 :: rest => if rest.head? = some 45 then none else parseInt64 rest
  | value => parseInt64 value

def SelectorConstraint.requireExists (c : SelectorConstraint) (value : Bool) :
    Option SelectorConstraint :=
  if c.existence = some (!value) then none else some { c with existence := some value }

/-- The constraint with one more requirement; `none` where nothing can satisfy it. -/
def applySelectorRequirement (c : SelectorConstraint) (requirement : NodeSelectorRequirement) :
    Option SelectorConstraint :=
  match requirement.operator with
  | .opIn => do
    let c ← c.requireExists true
    if requirement.values = [] then none
    else
      match c.allowed with
      | none => some { c with allowed := some requirement.values }
      | some allowed =>
        some { c with allowed := some (allowed.filter fun v => v ∈ requirement.values) }
  | .opNotIn => do
    let c ← c.requireExists true
    some { c with excluded := c.excluded ++ requirement.values }
  | .opExists => c.requireExists true
  | .opDoesNotExist => c.requireExists false
  | .opGt => do
    let c ← c.requireExists true
    match requirement.values with
    | [text] =>
      let value ← parseInt text
      some { c with lower := some (c.lower.elim value fun lower => max lower value) }
    | _ => none
  | .opLt => do
    let c ← c.requireExists true
    match requirement.values with
    | [text] =>
      let value ← parseInt text
      some { c with upper := some (c.upper.elim value fun upper => min upper value) }
    | _ => none

def SelectorConstraint.withinBounds (c : SelectorConstraint) (value : Bytes) : Bool :=
  if value ∈ c.excluded then false
  else if c.lower = none ∧ c.upper = none then true
  else
    match parseInt value with
    | none => false
    | some n => c.lower.all (fun lower => decide (lower < n)) &&
        c.upper.all (fun upper => decide (n < upper))

def selectorConstraintSatisfiable (c : SelectorConstraint) : Bool :=
  if c.existence = some false then
    decide (c.allowed = none ∧ c.lower = none ∧ c.upper = none)
  else
    match c.allowed with
    | some allowed => allowed.any c.withinBounds
    | none =>
      match c.lower, c.upper with
      | some lower, some upper =>
        if lower = 2 ^ 63 - 1 ∨ upper ≤ lower + 1 then false
        else if lower + 2 = upper then decide (decimal (lower + 1) ∉ c.excluded)
        else true
      | _, _ => true

/-- The constraints by label or field, with one more requirement. -/
def applyRequirement (constraints : List (Bytes × SelectorConstraint)) (key : Bytes)
    (requirement : NodeSelectorRequirement) : Option (List (Bytes × SelectorConstraint)) := do
  let c ← applySelectorRequirement ((constraints.lookup key).getD .empty) requirement
  some ((key, c) :: constraints.filter fun entry => entry.1 ≠ key)

def applyRequirements : List (Bytes × SelectorConstraint) →
    List (Bytes × NodeSelectorRequirement) → Option (List (Bytes × SelectorConstraint))
  | constraints, [] => some constraints
  | constraints, (domain, requirement) :: rest => do
    let constraints ← applyRequirement constraints (domain ++ requirement.key) requirement
    applyRequirements constraints rest

def nodeSelectorTermsCompatible (left right : NodeSelectorTerm) : Bool :=
  let label := ascii "label:"
  let field := ascii "field:"
  let requirements := left.matchExpressions.map (label, ·) ++
    right.matchExpressions.map (label, ·) ++ left.matchFields.map (field, ·) ++
    right.matchFields.map (field, ·)
  match applyRequirements [] requirements with
  | none => false
  | some constraints => constraints.all fun entry => selectorConstraintSatisfiable entry.2

def nodeSelectorTermNonempty (term : NodeSelectorTerm) : Bool :=
  decide (term.matchExpressions ≠ [] ∨ term.matchFields ≠ [])

/-- The required terms; `none` is unconstrained. -/
def requiredVolumeTerms (affinity : Option VolumeNodeAffinity) : Option (List NodeSelectorTerm) :=
  affinity.bind VolumeNodeAffinity.required

def volumeNodeAffinitiesCompatible (left right : Option VolumeNodeAffinity) : Bool :=
  match requiredVolumeTerms left, requiredVolumeTerms right with
  | none, none => true
  | none, some rightTerms => rightTerms.any fun term =>
      nodeSelectorTermNonempty term && nodeSelectorTermsCompatible ⟨[], []⟩ term
  | some leftTerms, none => leftTerms.any fun term =>
      nodeSelectorTermNonempty term && nodeSelectorTermsCompatible term ⟨[], []⟩
  | some leftTerms, some rightTerms => leftTerms.any fun leftTerm =>
      nodeSelectorTermNonempty leftTerm && rightTerms.any fun rightTerm =>
        nodeSelectorTermNonempty rightTerm && nodeSelectorTermsCompatible leftTerm rightTerm

end Kama.Controller
