import Tc8Harness.Inventory.SpecInventory

/-!
# Registering cases, iterated cases and aliases

The mutating half of `sce_integration/case_registry.cpp`: authored cases are added one by one, a case
made of iterations is declared and later composed from its iteration entries, and an alias copies its
target's entry under a second identity. `Catalog` is the registry with what these read of an entry; the
fields that are only copied along (capture ports, barriers, requirements, applicability) are left out.

`add` aborts on a duplicate, which is `none`. A call that returns false gives the text it puts into
`*err` beside the registry it leaves.
-/

namespace Tc8Harness.Sce

/-! ## Ids -/

/-- The iteration an id names (`<ID>_IT2` names 2), or 0. The tag is upper-case only. -/
def iterationOf (id : List Char) : Nat :=
  match id.reverse with
  | d :: 'T' :: 'I' :: '_' :: _ :: _ => if '1' ≤ d ∧ d ≤ '9' then d.toNat - '0'.toNat else 0
  | _ => 0

def iterationParent (id : List Char) : List Char :=
  if iterationOf id ≠ 0 then id.take (id.length - 4) else id

/-- A category, an underscore and digits, before a variant tag if there is one. -/
def isWellFormedCaseId (id : List Char) : Bool :=
  let core := stripVariantTag id
  let digits := (core.reverse.takeWhile (· ≠ '_')).reverse
  decide ('_' ∈ core) && !digits.isEmpty && decide (digits.length + 1 < core.length) &&
    digits.all Char.isDigit

/-! ## Entries -/

inductive BpfGroup where
  | arp
  | icmpv4
  | ipv4
  | udp
  | dhcpv4
  | tcp
  | someIp
  | arpAndUdp
  | arpAndDhcpv4
  | udpAndDhcpv4
  | tcpAndIcmpv4
  deriving DecidableEq, Repr

inductive ControlPlaneRole where
  | kScaffolding
  | kEvidence
  deriving DecidableEq, Repr

/-- A case entry; `φ` is the type of state-machine factories. -/
structure CatalogEntry (φ : Type) extends CaseEntry where
  category : List Char := []
  description : List Char := []
  topology : Int := 1
  bpfGroup : BpfGroup := .someIp
  bpfExpression : List Char := []
  requiredCapabilities : BitVec 32 := 0
  controlPlaneRole : ControlPlaneRole := .kScaffolding
  factory : Option φ
  aliasOf : QualifiedCaseId := ⟨[], []⟩
  aliasSurfacePin : List Char := []
  iterations : List (List Char) := []
  deriving DecidableEq

structure IteratedCaseDecl where
  suite : List Char := kDefaultSuite
  id : List Char
  description : List Char := []
  numbers : List Char := []
  deriving DecidableEq, Repr

structure CaseAlias where
  suite : List Char
  id : List Char
  targetSuite : List Char
  targetId : List Char
  pinnedSurface : List Char := []
  iteration : Int := 0
  deriving DecidableEq, Repr

namespace CatalogEntry

variable {φ : Type} (e : CatalogEntry φ)

def isAlias : Bool := !e.aliasOf.id.isEmpty

def isIteration : Bool := iterationOf e.id != 0

def isComposite : Bool := !e.iterations.isEmpty

/-- An iteration of the case `suite`, `id`. -/
def isUnitOf (suite id : List Char) : Bool :=
  e.isIteration && equalsIgnoreAsciiCase e.suite suite &&
    equalsIgnoreAsciiCase (iterationParent e.id) id

/-- What the capture and the control channel are set up for. -/
def sameSetup (first : CatalogEntry φ) : Bool :=
  e.topology == first.topology && e.bpfGroup == first.bpfGroup &&
    e.bpfExpression == first.bpfExpression && e.controlPlaneRole == first.controlPlaneRole

end CatalogEntry

structure Catalog (φ : Type) where
  entries : List (CatalogEntry φ) := []
  iterated : List IteratedCaseDecl := []

namespace Catalog

variable {φ : Type} (reg : Catalog φ)

def find (suite id : List Char) : Option (CatalogEntry φ) :=
  reg.entries.find? fun e => e.isCase suite id

/-- `none` is the abort. -/
def add (entry : CatalogEntry φ) : Option (Catalog φ) :=
  if reg.entries.any fun existing => existing.isCase entry.suite entry.id then none
  else some { reg with entries := reg.entries ++ [entry] }

def addIteratedCase (decl : IteratedCaseDecl) : Catalog φ :=
  { reg with iterated := reg.iterated ++ [decl] }

/-! ## Aliases -/

def aliasError (a : CaseAlias) (why : String) : List Char :=
  "case alias ".toList ++ qualifiedCaseId a.suite a.id ++ " -> ".toList ++
    qualifiedCaseId a.targetSuite a.targetId ++ ": ".toList ++ why.toList

/-- The entry an alias stands for: its target, or the target's iteration that it names. -/
def aliasTarget (a : CaseAlias) : Except String (CatalogEntry φ) :=
  match reg.find a.targetSuite a.targetId with
  | none => .error "the target is not a registered case"
  | some target =>
    if target.isAlias then
      .error "the target is itself an alias; name the case it resolves to"
    else if a.iteration ≠ 0 then
      if !target.isComposite then
        .error "the pointer names an iteration, but the target is not made of iterations"
      else
        match (target.iterations.find? fun unitId => (iterationOf unitId : Int) = a.iteration).bind
            (reg.find a.targetSuite) with
        | none => .error "the pointer names an iteration the target does not have"
        | some unit => .ok unit
    else .ok target

def addAlias (a : CaseAlias) : Catalog φ × Option (List Char) :=
  if !isWellFormedCaseId a.id then
    (reg, some (aliasError a "the alias id must end in '_<digits>', as every case id does"))
  else if equalsIgnoreAsciiCase a.suite a.targetSuite then
    (reg, some (aliasError a ("an alias must live in a different suite than its target; one test " ++
      "under two ids in one catalog would be counted twice")))
  else
    match reg.aliasTarget a with
    | .error why => (reg, some (aliasError a why))
    | .ok target =>
      if (reg.find a.suite a.id).isSome then
        (reg, some (aliasError a "that (suite, id) is already registered"))
      else
        let copy : CatalogEntry φ :=
          { target with
            id := a.id
            suite := a.suite
            category := deriveCategory a.id
            aliasOf := ⟨target.suite, target.id⟩
            aliasSurfacePin := a.pinnedSurface }
        ({ reg with entries := reg.entries ++ [copy] }, none)

/-! ## Iterated cases -/

def iteratedError (id why : List Char) : List Char :=
  "iterated case ".toList ++ id ++ ": ".toList ++ why

def isDeclared (suite id : List Char) : Bool :=
  reg.iterated.any fun d => equalsIgnoreAsciiCase d.suite suite && equalsIgnoreAsciiCase d.id id

/-- The registered iterations of a case by number. No two of them have one number while no two
entries are one case. -/
def units (suite id : List Char) : List (CatalogEntry φ) :=
  (reg.entries.filter fun e => e.isUnitOf suite id).insertionSort
    fun a b => iterationOf a.id ≤ iterationOf b.id

def digitChar (n : Nat) : Char := Char.ofNat ('0'.toNat + n)

def expectedNumbers (d : IteratedCaseDecl) (count : Nat) : List Char :=
  if d.numbers = [] then (List.range count).map fun i => digitChar (i + 1) else d.numbers

/-- The composite entry of one declaration over its units. -/
def composite (d : IteratedCaseDecl) (first : CatalogEntry φ) (units : List (CatalogEntry φ)) :
    CatalogEntry φ :=
  { first with
    iterations := units.map fun u => u.id
    id := d.id
    suite := d.suite
    category := deriveCategory d.id
    description := d.description
    requiredCapabilities := units.foldl (fun caps u => caps ||| u.requiredCapabilities) 0
    factory := none }

/-- The body of the second loop of `composeIterations`. -/
def composeOne (d : IteratedCaseDecl) : Except (List Char) (CatalogEntry φ) :=
  match reg.units d.suite d.id with
  | [] => .error (iteratedError d.id "declared with no iteration registered".toList)
  | first :: rest =>
    let units := first :: rest
    let expected := expectedNumbers d units.length
    let found := units.map fun u => digitChar (iterationOf u.id)
    if found ≠ expected then
      .error (iteratedError d.id ("its iterations are numbered ".toList ++ found ++
        ", expected ".toList ++ expected ++
        (if d.numbers = [] then
          " (1..N without a gap; declare the spec's numbers if it skips one)"
        else " as declared").toList))
    else if (reg.find d.suite d.id).isSome then
      .error (iteratedError d.id ("the id is also registered as a case with a state machine of " ++
        "its own; a case is either made of iterations or it is not").toList)
    else
      match units.find? fun u => !u.sameSetup first with
      | some u => .error (iteratedError d.id ("iteration '".toList ++ u.id ++
          "' differs from the first in topology, capture filter or control-plane role".toList))
      | none => .ok (composite d first units)

/-- An iteration whose case nobody declared. -/
def undeclared : Option (CatalogEntry φ) :=
  reg.entries.find? fun e => e.isIteration && !reg.isDeclared e.suite (iterationParent e.id)

def composeIterations : Catalog φ × Option (List Char) :=
  match reg.undeclared with
  | some e => (reg, some (iteratedError (iterationParent e.id) ("iteration '".toList ++ e.id ++
      ("' is registered but the case is not declared " ++ "(TC8_REGISTER_ITERATED_CASE)").toList)))
  | none =>
    match reg.iterated.mapM reg.composeOne with
    | .error err => (reg, some err)
    | .ok composed => ({ reg with entries := reg.entries ++ composed }, none)

/-! ## Calls -/

inductive Call (φ : Type) where
  | add (entry : CatalogEntry φ)
  | addIteratedCase (decl : IteratedCaseDecl)
  | composeIterations
  | addAlias (a : CaseAlias)

/-- One call; `none` when it aborts. -/
def step (reg : Catalog φ) : Call φ → Option (Catalog φ)
  | .add entry => reg.add entry
  | .addIteratedCase decl => some (reg.addIteratedCase decl)
  | .composeIterations => some reg.composeIterations.1
  | .addAlias a => some (reg.addAlias a).1

/-- The calls one after another; `none` once one of them has aborted. -/
def run (reg : Catalog φ) (calls : List (Call φ)) : Option (Catalog φ) := calls.foldlM step reg

end Catalog

end Tc8Harness.Sce
