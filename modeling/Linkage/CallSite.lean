import Linkage.Retype

/-
  Call sites: a fixed signature and a current target, which
  may be replaced unless the site is constant.

  Key definitions include:
    * `Site.make`
    * `Site.unlinked`
    * `Site.setTarget`
    * `Site.dynamicInvoker`
-/

------------------------------------------------------------
-- Call sites
------------------------------------------------------------

namespace Linkage

namespace Site

/- Make a call site of the signature of a target. -/
def make
    (policy : Policy)
    (t : Target) : Link SiteId :=
  fun s =>
    .ok ⟨s.sites.size⟩
      { s with sites := s.sites.push ⟨policy, t.signature, t⟩ }

/-
  Make a call site that has no target yet.  A constant one
  would never get one.
-/
def unlinked
    (rt : Runtime)
    (policy : Policy)
    (sig : Signature) : Link SiteId := do
  if policy = .constant then Link.misuse .constantSiteUnlinked
  else
    let t ← Target.build rt sig .unlinked
    make policy t

/-
  A site takes a target of its own signature, unless it is
  constant.
-/
def accepts
    (x : Site)
    (t : Target) : Except LinkError Unit :=
  if x.policy = .constant then
    .error (.illegalArgument .constantSiteRetarget)
  else if t.signature ≠ x.signature then
    .error (.typeMismatch x.signature t.signature)
  else .ok ()

/- Replace the target of a call site. -/
def setTarget
    (i : SiteId)
    (x : Site)
    (t : Target) : Link Unit :=
  fun s =>
    match x.accepts t with
    | .error e => .error e s
    | .ok () =>
        .ok ()
          { s with
            sites :=
              s.sites.setIfInBounds i.index { x with target := t } }

/-
  A target that calls the current target of a site.  A
  constant site gives the target itself.
-/
def dynamicInvoker
    (rt : Runtime)
    (i : SiteId)
    (x : Site) : Link Target :=
  if x.policy = .constant then pure x.target
  else Target.build rt x.signature (.site i)

end Site

end Linkage
