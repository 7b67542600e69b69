import RockchipSoc.Foundation.Forest
import Mathlib.Data.Finset.Card

/-!
# The power domains of the VOP2

Windows belong to power domains, and a power domain may be nested in another one.  Enabling a
window takes a reference of its domain and of all domains above; disabling it gives them back.
A domain whose last reference is given back is turned off, at once or by work scheduled for
later, unless its own module is not enabled.
-/

namespace RockchipSoc
namespace Vop

/-- What is fixed on a chip: the nesting of the domains, the domain of each window and whether
domains are turned off with a delay. -/
structure PdData (D W : Type*) where
  forest : Forest D
  pd : W → Option D
  delayedPd : Bool

/-- The domains and windows; `splice` holds the links `win->splice_win`. -/
structure PdState (D W : Type*) where
  refCount : D → ℕ
  on : D → Bool
  moduleOn : D → Bool
  powerOffWork : D → Bool
  enabled : Finset W
  splice : Forest W

variable {D W : Type*} [DecidableEq D] [DecidableEq W]

/-! ### One domain -/

def vop2PowerDomainOn (state : PdState D W) (pd : D) : PdState D W :=
  if state.on pd then state else { state with on := Function.update state.on pd true }

def vop2PowerDomainOff (state : PdState D W) (pd : D) : PdState D W :=
  { state with on := Function.update state.on pd false }

def scheduleDelayedWork (state : PdState D W) (pd : D) : PdState D W :=
  { state with powerOffWork := Function.update state.powerOffWork pd true }

def cancelDelayedWork (state : PdState D W) (pd : D) : PdState D W :=
  { state with powerOffWork := Function.update state.powerOffWork pd false }

/-- What `vop2_power_domain_get` does at one domain. -/
def getOne (data : PdData D W) (state : PdState D W) (pd : D) : PdState D W :=
  let state :=
    if state.refCount pd = 0 then
      vop2PowerDomainOn (if data.delayedPd then cancelDelayedWork state pd else state) pd
    else state
  { state with refCount := Function.update state.refCount pd (state.refCount pd + 1) }

/-- What `vop2_power_domain_put` does at one domain. -/
def putOne (data : PdData D W) (state : PdState D W) (pd : D) : PdState D W :=
  let state :=
    { state with refCount := Function.update state.refCount pd (state.refCount pd - 1) }
  if state.refCount pd = 0 ∧ state.moduleOn pd then
    if data.delayedPd then scheduleDelayedWork state pd else vop2PowerDomainOff state pd
  else state

/-! ### A domain and those above it -/

/-- From the root down to the domain. -/
def vop2PowerDomainGet (data : PdData D W) (state : PdState D W) (pd : D) : PdState D W :=
  (data.forest.chain pd).reverse.foldl (getOne data) state

/-- From the domain up to the root. -/
def vop2PowerDomainPut (data : PdData D W) (state : PdState D W) (pd : D) : PdState D W :=
  (data.forest.chain pd).foldl (putOne data) state

/-- The work of a domain; it is no longer scheduled when it runs. -/
def vop2PowerDomainOffWork (state : PdState D W) (pd : D) : PdState D W :=
  let state := cancelDelayedWork state pd
  if state.refCount pd = 0 then vop2PowerDomainOff state pd else state

/-! ### Windows -/

def PdState.setModuleOn (state : PdState D W) (pd : D) (moduleOn : Bool) : PdState D W :=
  { state with moduleOn := Function.update state.moduleOn pd moduleOn }

def vop2WinEnable (data : PdData D W) (state : PdState D W) (win : W) : PdState D W :=
  if win ∈ state.enabled then state
  else
    let state :=
      match data.pd win with
      | some pd => (vop2PowerDomainGet data state pd).setModuleOn pd true
      | none => state
    { state with enabled := insert win state.enabled }

/-- The part of `vop2_win_disable` behind the splice window. -/
def disableWin (data : PdData D W) (state : PdState D W) (win : W) : PdState D W :=
  if win ∈ state.enabled then
    let state :=
      match data.pd win with
      | some pd => (vop2PowerDomainPut data state pd).setModuleOn pd false
      | none => state
    { state with enabled := state.enabled.erase win }
  else state

def PdState.cutSplice (state : PdState D W) (win : W) : PdState D W :=
  { state with splice := state.splice.cut win }

/-- The windows a call disables, in order: the splice window before the window it belongs to. -/
def disableOrder (state : PdState D W) (win : W) (skipSpliceWin : Bool) : List W :=
  if skipSpliceWin then [win] else (state.splice.chain win).reverse

def vop2WinDisable (data : PdData D W) (state : PdState D W) (win : W)
    (skipSpliceWin : Bool) : PdState D W :=
  (disableOrder state win skipSpliceWin).foldl
    (fun state win =>
      disableWin data (if skipSpliceWin then state else state.cutSplice win) win) state

/-- Without a splice window, or when it is skipped, the window alone is disabled. -/
theorem vop2WinDisable_alone (data : PdData D W) (state : PdState D W) {win : W}
    {skipSpliceWin : Bool} (alone : skipSpliceWin = true ∨ state.splice.parent win = none) :
    vop2WinDisable data state win skipSpliceWin = disableWin data state win := by
  cases skipSpliceWin with
  | true => rfl
  | false =>
      have root := alone.resolve_left Bool.false_ne_true
      simp [vop2WinDisable, disableOrder, Forest.chain_of_root root, PdState.cutSplice,
        Forest.cut_of_root root]

/-- A splice window is disabled by a call of its own, then the link is cut. -/
theorem vop2WinDisable_splice (data : PdData D W) (state : PdState D W) {win spliceWin : W}
    (linked : state.splice.parent win = some spliceWin) :
    vop2WinDisable data state win false =
      disableWin data ((vop2WinDisable data state spliceWin false).cutSplice win) win := by
  simp [vop2WinDisable, disableOrder, Forest.chain_of_parent linked]

/-- The calls, the scheduled work, and the rest of the driver setting splice links. -/
inductive PdCall (D W : Type*)
  | enable (win : W)
  | disable (win : W) (skipSpliceWin : Bool)
  | powerOffWork (pd : D)
  | link (splice : Forest W)

/-- Work runs only when it is scheduled. -/
def pdStep (data : PdData D W) (state : PdState D W) : PdCall D W → Option (PdState D W)
  | .enable win => some (vop2WinEnable data state win)
  | .disable win skipSpliceWin => some (vop2WinDisable data state win skipSpliceWin)
  | .powerOffWork pd =>
      if state.powerOffWork pd then some (vop2PowerDomainOffWork state pd) else none
  | .link splice => some { state with splice }

end Vop
end RockchipSoc
