import Linkage.ClassTable

/-
  Access: what a lookup on behalf of a class may reach.  A
  lookup holds a set of modes; a member is granted by its
  flags, the classes involved and the modes.

  Key definitions include:
    * `Mode`
    * `Modes`
    * `Denial`
    * `Denial.reason`
    * `isClassAccessible`
    * `checkMember`
    * `narrowModes`
-/

------------------------------------------------------------
-- Modes
------------------------------------------------------------

namespace Linkage

/- One right that a lookup may hold. -/
inductive Mode where
| publicAccess
| packageAccess
| protectedAccess
| privateAccess
deriving DecidableEq, Repr

/- The place of a mode in a mode word. -/
def Mode.bit : Mode → Nat
| publicAccess => 0
| packageAccess => 1
| protectedAccess => 2
| privateAccess => 3

/- A set of modes, kept as a word. -/
structure Modes where
  word : UInt8
deriving DecidableEq, Repr, Inhabited

namespace Modes

def none : Modes := ⟨0⟩

def all : Modes := ⟨15⟩

def publicOnly : Modes := ⟨1⟩

/- A mode is in the set. -/
def has
    (m : Modes)
    (x : Mode) : Bool :=
  m.word.toNat.testBit x.bit

/- The set without one mode. -/
def without
    (m : Modes)
    (x : Mode) : Modes :=
  ⟨m.word &&& ~~~(1 <<< UInt8.ofNat x.bit)⟩

end Modes

------------------------------------------------------------
-- Decisions
------------------------------------------------------------

/- Why a member is not granted. -/
inductive Denial where
| noModes
| classNotAccessible
| memberPrivate
| memberProtected
| memberPackagePrivate
deriving DecidableEq, Repr

/- The wording of each denial. -/
def Denial.reason : Denial → String
| noModes => "lookup has no access modes"
| classNotAccessible => "referenced class is not accessible"
| memberPrivate => "member is private"
| memberProtected => "member is protected"
| memberPackagePrivate => "member is package-private"

/-
  A class is accessible if it is known and public, or if it
  is of the package of the caller.
-/
def isClassAccessible
    (T : ClassTable)
    (target caller : ClassName)
    (m : Modes) : Bool :=
  if m = .none then false
  else
    let known :=
      match T.find? target with
      | some c => c.flags.has .isPublic
      | none => false
    known ||
      (m.has .packageAccess && decide (target.SamePackage caller))

/- A protected member is granted. -/
def grantsProtected
    (T : ClassTable)
    (caller : ClassName)
    (m : Modes)
    (defining : ClassName) : Bool :=
  ((m.has .packageAccess || m.has .protectedAccess) &&
      decide (defining.SamePackage caller)) ||
    (m.has .protectedAccess && T.isSubclass caller defining)

/-
  The decision on a member: `defining` declares it and
  `reference` is the class that it is asked of.
-/
def checkMember
    (T : ClassTable)
    (caller : ClassName)
    (m : Modes)
    (defining reference : ClassName)
    (flags : Flags) : Except Denial Unit :=
  if m = .none then .error .noModes
  else if !isClassAccessible T reference caller m then
    .error .classNotAccessible
  else if flags.has .isPublic then .ok ()
  else if flags.has .isPrivate then
    if m.has .privateAccess && decide (defining.SameNest caller)
    then .ok ()
    else .error .memberPrivate
  else if flags.has .isProtected then
    if grantsProtected T caller m defining
    then .ok ()
    else .error .memberProtected
  else if
    m.has .packageAccess && decide (defining.SamePackage caller)
  then .ok ()
  else .error .memberPackagePrivate

/-
  The modes that a lookup keeps when it is moved from one
  class to another.  Protected access is never kept, since it
  belongs to the subclass relation of the first class.
-/
def narrowModes
    (T : ClassTable)
    (source target : ClassName)
    (m : Modes) : Modes :=
  if source = target then m
  else if !isClassAccessible T target source m then .none
  else
    let nest :=
      if source.SameNest target
      then m
      else m.without .privateAccess
    let package :=
      if source.SamePackage target
      then nest
      else (nest.without .packageAccess).without .privateAccess
    package.without .protectedAccess

end Linkage
