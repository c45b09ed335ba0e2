import Linkage.CallSite
import Linkage.Lookup
import Linkage.Proofs.Conversion
import Linkage.Proofs.Link.Catalog
import Mathlib.Data.List.Forall2

/-
  When a form fits a signature: the signatures of the nodes
  that a node delegates to, and the values that it holds, are
  such that its own arguments can be edited into theirs.
  There is one rule for each form.

  Key definitions include:
    * `Host.Selects`
    * `Form.Calls`
    * `Filtered`
    * `Form.Fits`
    * `Catalog.Fits`

  Key theorems include:
    * `Form.Fits.later`
    * `Catalog.Fits.addNode`
-/

------------------------------------------------------------
-- Members of Hosts
------------------------------------------------------------

namespace Linkage

/- The code that a method runs on a receiver of a type. -/
inductive Host.Selects
    (H : Host)
    (m : Method)
    (receiver : Ty)
    (code : Code) : Prop
| address :
    m.slot = .address code →
    H.Selects m receiver code
| virtualTable (n : Nat) :
    m.slot = .virtualTable n →
    H.virtualEntry receiver n = some code →
    H.Selects m receiver code
| interfaceTable (n : Nat) :
    m.slot = .interfaceTable n →
    H.interfaceEntry receiver m.declaring n = some code →
    H.Selects m receiver code

/- A form that calls an instance method where it lives. -/
inductive Form.Calls
    (m : Method)
    (how : MethodKind) : Form Target → Prop
| direct (c : Code) :
    m.slot = .address c →
    Calls m how (.direct m how c)
| virtual (n : Nat) :
    m.slot = .virtualTable n →
    Calls m how (.virtual m n)
| interface (n : Nat) :
    m.slot = .interfaceTable n →
    Calls m how (.interface m n)

------------------------------------------------------------
-- Filters
------------------------------------------------------------

/-
  Filters from position `i` on turn arguments of the types
  `outer` into arguments of the types `inner`.
-/
structure Filtered
    (i : Nat)
    (filters : List (Option Target))
    (outer inner : List Ty) : Prop where
  length_eq : outer.length = inner.length
  within : i + filters.length ≤ inner.length
  kept :
    ∀ k, (∀ f, i ≤ k → filters[k - i]? ≠ some (some f)) →
      outer[k]? = inner[k]?
  filtered :
    ∀ j f, filters[j]? = some (some f) →
      ∃ p,
        f.params = [p] ∧ outer[i + j]? = some p ∧
          inner[i + j]? = some f.ret

------------------------------------------------------------
-- Forms that Fit
------------------------------------------------------------

/-
  A form fits a signature, given the signatures of the call
  sites by number.
-/
inductive Form.Fits
    (rt : Runtime)
    (sites : List Signature)
    (sig : Signature) : Form Target → Prop
| static
    {m : Method} {owner caller : ClassName} {name : String}
    {asked : Signature} {entry : Code}
    (hResolve :
      rt.host.resolveMethod owner name asked .isStatic caller =
        .ok m)
    (hSlot : m.slot = .address entry)
    (hSig : sig = m.signature) :
    Fits rt sites sig (.direct m .isStatic entry)
| constructor
    {m : Method} {owner caller : ClassName}
    {asked : Signature} {entry : Code}
    (hResolve :
      rt.host.resolveMethod owner constructorName asked
        .isConstructor caller = .ok m)
    (hSlot : m.slot = .address entry)
    (hSig : sig = m.signature.withRet (.cls owner)) :
    Fits rt sites sig (.direct m .isConstructor entry)
| method
    {m : Method} {owner caller receiver : ClassName}
    {name : String} {asked : Signature} {how : MethodKind}
    {form : Form Target}
    (hHow : how = .isVirtual ∨ how = .isInterface)
    (hResolve :
      rt.host.resolveMethod owner name asked how caller = .ok m)
    (hReceiver : rt.classes.isSubclass receiver owner = true)
    (hParams : sig.params = .cls receiver :: m.signature.params)
    (hRet : sig.ret = m.signature.ret)
    (hCalls : form.Calls m how) :
    Fits rt sites sig form
| special
    {m : Method} {owner caller receiver : ClassName}
    {name : String} {asked : Signature} {entry : Code}
    (hResolve :
      rt.host.resolveMethod owner name asked .isSpecial caller =
        .ok m)
    (hSelects : rt.host.Selects m (.cls m.declaring) entry)
    (hReceiver : rt.classes.isSubclass receiver owner = true)
    (hParams : sig.params = .cls receiver :: m.signature.params)
    (hRet : sig.ret = m.signature.ret) :
    Fits rt sites sig (.direct m .isSpecial entry)
| fieldGet
    {f : Field} {owner caller : ClassName} {name : String}
    {t : Ty} {offset : Nat}
    (hResolve :
      rt.host.resolveField owner name t caller = .ok f)
    (hSlot : f.slot = .fieldOffset offset)
    (hSig :
      Lookup.fieldSignature owner f.type (f.flags.has .isStatic)
        false = .ok sig) :
    Fits rt sites sig (.fieldGet f offset)
| fieldSet
    {f : Field} {owner caller : ClassName} {name : String}
    {t : Ty} {offset : Nat}
    (hResolve :
      rt.host.resolveField owner name t caller = .ok f)
    (hSlot : f.slot = .fieldOffset offset)
    (hSig :
      Lookup.fieldSignature owner f.type (f.flags.has .isStatic)
        true = .ok sig) :
    Fits rt sites sig (.fieldSet f offset)
| bound
    {u : Target} {v : Value} {p : Ty}
    (hParams : u.params = p :: sig.params)
    (hRet : u.ret = sig.ret)
    (hValue : v.conforms rt.classes p = true) :
    Fits rt sites sig (.bound u v)
| convertArguments
    {u : Target} {cs : List Conversion} {how : Strength}
    (hPlan :
      planParams rt.classes how 0 sig.params u.params = .ok cs)
    (hCount : sig.count = u.count)
    (hRet : u.ret = sig.ret) :
    Fits rt sites sig (.convertArguments u cs)
| convertReturn
    {u : Target} {c : Conversion} {how : Strength}
    (hParams : u.params = sig.params)
    (hClass : classify rt.classes u.ret sig.ret how = some c) :
    Fits rt sites sig (.convertReturn u c)
| filterReturn
    {u f : Target}
    (hParams : u.params = sig.params)
    (hFilter : f.params = Target.filterParams u.ret)
    (hRet : f.ret = sig.ret) :
    Fits rt sites sig (.filterReturn u f)
| filterArguments
    {u : Target} {pos : Nat} {fs : List (Option Target)}
    (hFiltered : Filtered pos fs sig.params u.params)
    (hRet : u.ret = sig.ret) :
    Fits rt sites sig (.filterArguments u pos fs)
| collect
    {u : Target} {component last : Ty} {count : Nat}
    {fixed : List Ty}
    (hParams : u.params = fixed ++ [last])
    (hSig : sig.params = fixed ++ List.replicate count component)
    (hArray :
      rt.classes.isAssignable (.array component) last = true)
    (hRet : u.ret = sig.ret) :
    Fits rt sites sig (.collect u component count)
| spread
    {u : Target} {component : Ty} {count : Nat}
    {fixed : List Ty}
    (hParams :
      u.params = fixed ++ List.replicate count component)
    (hSig : sig.params = fixed ++ [.array component])
    (hRet : u.ret = sig.ret) :
    Fits rt sites sig (.spread u count)
| permute
    {u : Target} {order : List Nat}
    (hOrder :
      List.Forall₂ (fun j t => sig.params[j]? = some t) order
        u.params)
    (hRet : u.ret = sig.ret) :
    Fits rt sites sig (.permute u order)
| insert
    {u : Target} {pos : Nat} {values : List Value}
    {types : List Ty}
    (hPos : pos ≤ sig.count)
    (hParams :
      u.params =
        sig.params.take pos ++ types ++ sig.params.drop pos)
    (hValues :
      List.Forall₂ (fun v t => v.conforms rt.classes t = true)
        values types)
    (hRet : u.ret = sig.ret) :
    Fits rt sites sig (.insert u pos values)
| drop
    {u : Target} {pos count : Nat} {types : List Ty}
    (hPos : pos ≤ u.count)
    (hParams :
      sig.params =
        u.params.take pos ++ types ++ u.params.drop pos)
    (hCount : types.length = count)
    (hRet : u.ret = sig.ret) :
    Fits rt sites sig (.drop u pos count)
| fold
    {u combiner : Target}
    (hParams :
      u.params = Target.filterParams combiner.ret ++ sig.params)
    (hLeading : combiner.params <+: sig.params)
    (hRet : u.ret = sig.ret) :
    Fits rt sites sig (.fold u combiner)
| guard
    {test yes no : Target}
    (hTest : test.ret = .boolean)
    (hLeading : test.params <+: sig.params)
    (hYes : yes.signature = sig)
    (hNo : no.signature = sig) :
    Fits rt sites sig (.guard test yes no)
| rescue
    {u handler : Target} {caught : ClassName} {rest : List Ty}
    (hTarget : u.signature = sig)
    (hCaught : rt.classes.isThrowable caught = true)
    (hHandler : handler.params = .cls caught :: rest)
    (hLeading : rest <+: sig.params)
    (hRet : handler.ret = sig.ret) :
    Fits rt sites sig (.rescue u caught handler)
| varargs
    {u : Target} {component element : Ty} {fixed : List Ty}
    (hPlain : u.isVarargs = false)
    (hTarget : u.signature = sig)
    (hParams : sig.params = fixed ++ [.array element])
    (hArray :
      rt.classes.isAssignable (.array component)
        (.array element) = true) :
    Fits rt sites sig (.varargs u (.array component))
| site
    {i : SiteId}
    (hSite : sites[i.index]? = some sig) :
    Fits rt sites sig (.site i)
| constant
    {v : Value}
    (hParams : sig.params = [])
    (hValue : v.conforms rt.classes sig.ret = true) :
    Fits rt sites sig (.constant v)
| identity
    (hParams : sig.params = [sig.ret]) :
    Fits rt sites sig .identity
| throw
    {n : ClassName}
    (hThrown : rt.classes.isThrowable n = true)
    (hParams : sig.params = [.cls n]) :
    Fits rt sites sig .throw
| arrayGet
    (hParams : sig.params = [.array sig.ret, .int]) :
    Fits rt sites sig .arrayGet
| arraySet
    {component : Ty}
    (hParams : sig.params = [.array component, .int, component])
    (hRet : sig.ret = .void) :
    Fits rt sites sig .arraySet
| arrayLength
    {component : Ty}
    (hParams : sig.params = [.array component])
    (hRet : sig.ret = .int) :
    Fits rt sites sig .arrayLength
| invoker
    {exact : Bool} {inner : Signature}
    (hParams : sig.params = .methodHandle :: inner.params)
    (hRet : sig.ret = inner.ret) :
    Fits rt sites sig (.invoker exact inner)
| unlinked :
    Fits rt sites sig .unlinked

variable {rt : Runtime}
variable {sites sites' : List Signature}
variable {sig : Signature}
variable {form : Form Target}
variable {c : Catalog}
variable {t : Target}

/- What fits still fits when there are more call sites. -/
theorem Form.Fits.later
    (hFits : form.Fits rt sites sig)
    (hSites : sites <+: sites') :
    form.Fits rt sites' sig := by
  cases hFits with
  | static hResolve hSlot hSig =>
      exact .static hResolve hSlot hSig
  | constructor hResolve hSlot hSig =>
      exact .constructor hResolve hSlot hSig
  | method hHow hResolve hReceiver hParams hRet hCalls =>
      exact .method hHow hResolve hReceiver hParams hRet hCalls
  | special hResolve hSelects hReceiver hParams hRet =>
      exact .special hResolve hSelects hReceiver hParams hRet
  | fieldGet hResolve hSlot hSig =>
      exact .fieldGet hResolve hSlot hSig
  | fieldSet hResolve hSlot hSig =>
      exact .fieldSet hResolve hSlot hSig
  | bound hParams hRet hValue => exact .bound hParams hRet hValue
  | convertArguments hPlan hCount hRet =>
      exact .convertArguments hPlan hCount hRet
  | convertReturn hParams hClass =>
      exact .convertReturn hParams hClass
  | filterReturn hParams hFilter hRet =>
      exact .filterReturn hParams hFilter hRet
  | filterArguments hFiltered hRet =>
      exact .filterArguments hFiltered hRet
  | collect hParams hSig hArray hRet =>
      exact .collect hParams hSig hArray hRet
  | spread hParams hSig hRet => exact .spread hParams hSig hRet
  | permute hOrder hRet => exact .permute hOrder hRet
  | insert hPos hParams hValues hRet =>
      exact .insert hPos hParams hValues hRet
  | drop hPos hParams hCount hRet =>
      exact .drop hPos hParams hCount hRet
  | fold hParams hLeading hRet =>
      exact .fold hParams hLeading hRet
  | guard hTest hLeading hYes hNo =>
      exact .guard hTest hLeading hYes hNo
  | rescue hTarget hCaught hHandler hLeading hRet =>
      exact .rescue hTarget hCaught hHandler hLeading hRet
  | varargs hPlain hTarget hParams hArray =>
      exact .varargs hPlain hTarget hParams hArray
  | site hSite =>
      exact .site (Catalog.getElem?_of_prefix hSites hSite)
  | constant hParams hValue => exact .constant hParams hValue
  | identity hParams => exact .identity hParams
  | throw hThrown hParams => exact .throw hThrown hParams
  | arrayGet hParams => exact .arrayGet hParams
  | arraySet hParams hRet => exact .arraySet hParams hRet
  | arrayLength hParams hRet => exact .arrayLength hParams hRet
  | invoker hParams hRet => exact .invoker hParams hRet
  | unlinked => exact .unlinked

------------------------------------------------------------
-- Catalogs of Nodes that Fit
------------------------------------------------------------

namespace Catalog

/- The form of each listed node fits its signature. -/
def Fits
    (rt : Runtime)
    (c : Catalog) : Prop :=
  ∀ t ∈ c.made, t.form.Fits rt c.sites t.signature

theorem Fits.addNode
    (hFits : c.Fits rt)
    (hNode : t.form.Fits rt c.sites t.signature) :
    (c.addNode t).Fits rt := by
  intro u hu
  rcases mem_addNode.1 hu with hOld | rfl
  · exact hFits u hOld
  · exact hNode

theorem Fits.addSite
    (hFits : c.Fits rt)
    (s : Signature) :
    (c.addSite s).Fits rt := by
  intro u hu
  exact (hFits u hu).later (List.prefix_append _ _)

theorem Fits.empty : Catalog.empty.Fits rt := by
  intro u hu
  cases hu

end Catalog

end Linkage
