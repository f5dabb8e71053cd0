import Fbmeshd.Lib.Registers
import Fbmeshd.Rnl.RouteBuilder

/-!
# Builders after a reset

`reset` gives most fields of a builder their initial values. It leaves out the destination, the
family, the label and the interface index of a `RouteBuilder`, and the label fields of a
`NextHopBuilder`.
-/

namespace Fbmeshd

open Registers

/-! ### Routes -/

/-- The setters of a `RouteBuilder`. -/
inductive RouteSetter where
  | setDestination (dst : CIDRNetwork)
  | setMplsLabel (mplsLabel : UInt32)
  | setType (type : UInt8)
  | setRouteTable (routeTable : UInt8)
  | setProtocolId (protocolId : UInt8)
  | setScope (scope : UInt8)
  | setValid (isValid : Bool)
  | setFlags (flags : UInt32)
  | setPriority (priority : UInt32)
  | setTos (tos : UInt8)
  | setMtu (mtu : UInt32)
  | setAdvMss (advMss : UInt32)
  | setRouteIfName (ifName : String)
  | setRouteIfIndex (ifIndex : UInt32)
  | addNextHop (nextHop : NextHop)

namespace RouteBuilder

/-- A call of a setter. -/
def call (builder : RouteBuilder) : RouteSetter → RouteBuilder
  | .setDestination dst => builder.setDestination dst
  | .setMplsLabel mplsLabel => { builder with mplsLabel := some mplsLabel, family := AF_MPLS }
  | .setType type => builder.setType type
  | .setRouteTable routeTable => { builder with routeTable }
  | .setProtocolId protocolId => builder.setProtocolId protocolId
  | .setScope scope => builder.setScope scope
  | .setValid isValid => { builder with isValid }
  | .setFlags flags => { builder with flags := some flags }
  | .setPriority priority => { builder with priority := some priority }
  | .setTos tos => { builder with tos := some tos }
  | .setMtu mtu => builder.setMtu mtu
  | .setAdvMss advMss => builder.setAdvMss advMss
  | .setRouteIfName ifName => builder.setRouteIfName ifName
  | .setRouteIfIndex ifIndex => builder.setRouteIfIndex ifIndex
  | .addNextHop nextHop => builder.addNextHop nextHop

/-- `reset`. -/
def reset (builder : RouteBuilder) : RouteBuilder :=
  { builder with
    type := RTN_UNICAST
    routeTable := RT_TABLE_MAIN
    protocolId := DEFAULT_PROTOCOL_ID
    scope := RT_SCOPE_UNIVERSE
    isValid := false
    flags := none
    priority := none
    tos := none
    mtu := none
    advMss := none
    nextHops := ∅
    routeIfName := none }

/-- The destination is a register of the builder. -/
def dstRegister : Register call CIDRNetwork where
  read := RouteBuilder.dst
  writes
    | .setDestination dst => some dst
    | _ => none
  read_apply builder setter := by cases setter <;> rfl

/-- The label is a register of the builder. -/
def mplsLabelRegister : Register call (Option UInt32) where
  read := RouteBuilder.mplsLabel
  writes
    | .setMplsLabel mplsLabel => some (some mplsLabel)
    | _ => none
  read_apply builder setter := by cases setter <;> rfl

/-- The family is a register of the builder, which the destination and the label write. -/
def familyRegister : Register call UInt8 where
  read := RouteBuilder.family
  writes
    | .setDestination dst => some dst.1.family
    | .setMplsLabel _ => some AF_MPLS
    | _ => none
  read_apply builder setter := by cases setter <;> rfl

private theorem dstRegister_writes (setter : RouteSetter) :
    dstRegister.writes setter ≠ none ↔ ∃ dst, setter = .setDestination dst := by
  cases setter <;> simp [dstRegister]

private theorem mplsLabelRegister_writes (setter : RouteSetter) :
    mplsLabelRegister.writes setter ≠ none ↔ ∃ mplsLabel, setter = .setMplsLabel mplsLabel := by
  cases setter <;> simp [mplsLabelRegister]

/-- The family is written with the destination and with the label. -/
theorem familyRegister_writes (setter : RouteSetter) :
    familyRegister.writes setter ≠ none ↔
      dstRegister.writes setter ≠ none ∨ mplsLabelRegister.writes setter ≠ none := by
  cases setter <;> simp [familyRegister, dstRegister, mplsLabelRegister]

/-- The route without what `reset` leaves in the builder. -/
def restored (builder : RouteBuilder) : Route :=
  { builder.build with dst := (.empty, 0), family := AF_UNSPEC, mplsLabel := none }

private theorem restored_call (setter : RouteSetter) (builder builder' : RouteBuilder)
    (h : builder.restored = builder'.restored) :
    (builder.call setter).restored = (builder'.call setter).restored := by
  simp only [restored, build, Route.mk.injEq] at h
  cases setter <;>
    simp [restored, build, call, setDestination, setType, setProtocolId, setScope, setMtu,
      setAdvMss, setRouteIfName, setRouteIfIndex, addNextHop, h]

private theorem build_eq_iff {builder builder' : RouteBuilder} :
    builder.build = builder'.build ↔ builder.restored = builder'.restored ∧
      builder.dst = builder'.dst ∧ builder.mplsLabel = builder'.mplsLabel ∧
      builder.family = builder'.family := by
  simp only [restored, build, Route.mk.injEq]
  tauto

/-- The route after a reset is that of a fresh builder if what `reset` leaves is set again or was
never set. -/
theorem build_reset_iff (builder : RouteBuilder) (second : List RouteSetter) :
    (second.foldl call builder.reset).build = (second.foldl call {}).build ↔
      ((∃ dst, .setDestination dst ∈ second) ∨ builder.dst = (.empty, 0)) ∧
      ((∃ mplsLabel, .setMplsLabel mplsLabel ∈ second) ∨ builder.mplsLabel = none) ∧
      ((∃ dst, .setDestination dst ∈ second) ∨ (∃ mplsLabel, .setMplsLabel mplsLabel ∈ second) ∨
        builder.family = AF_UNSPEC) := by
  have hrestored : (second.foldl call builder.reset).restored = (second.foldl call {}).restored :=
    related_foldl restored_call second rfl
  have hdst := dstRegister.read_foldl_eq_iff second builder.reset {}
  have hlabel := mplsLabelRegister.read_foldl_eq_iff second builder.reset {}
  have hfamily := familyRegister.read_foldl_eq_iff second builder.reset {}
  simp only [familyRegister_writes, and_or_left, exists_or, or_assoc] at hfamily
  rw [dstRegister.exists_writes_iff dstRegister_writes] at hdst hfamily
  rw [mplsLabelRegister.exists_writes_iff mplsLabelRegister_writes] at hlabel hfamily
  rw [build_eq_iff, and_iff_right hrestored]
  exact and_congr hdst (and_congr hlabel hfamily)

end RouteBuilder

/-! ### Next hops -/

/-- `rnl::NextHopBuilder`. -/
structure NextHopBuilder where
  ifIndex : Option UInt32 := none
  gateway : Option IPAddress := none
  weight : UInt8 := 0
  labelAction : Option MplsActionCode := none
  swapLabel : Option UInt32 := none
  pushLabels : Option (List UInt32) := none

/-- The setters of a `NextHopBuilder`. -/
inductive NextHopSetter where
  | setIfIndex (ifIndex : UInt32)
  | setGateway (gateway : IPAddress)
  | setWeight (weight : UInt8)
  | setLabelAction (action : MplsActionCode)
  | setSwapLabel (swapLabel : UInt32)
  | setPushLabels (pushLabels : List UInt32)

namespace NextHopBuilder

/-- A call of a setter. -/
def call (builder : NextHopBuilder) : NextHopSetter → NextHopBuilder
  | .setIfIndex ifIndex => { builder with ifIndex := some ifIndex }
  | .setGateway gateway => { builder with gateway := some gateway }
  | .setWeight weight => { builder with weight }
  | .setLabelAction action => { builder with labelAction := some action }
  | .setSwapLabel swapLabel => { builder with swapLabel := some swapLabel }
  | .setPushLabels pushLabels => { builder with pushLabels := some pushLabels }

/-- `reset`. -/
def reset (builder : NextHopBuilder) : NextHopBuilder :=
  { builder with ifIndex := none, weight := 0, gateway := none }

/-- `build`. The family of a next hop is that of its gateway. -/
def build (builder : NextHopBuilder) : NextHop where
  ifIndex := builder.ifIndex
  gateway := builder.gateway
  weight := builder.weight
  labelAction := builder.labelAction
  swapLabel := builder.swapLabel
  pushLabels := builder.pushLabels

/-- The label action is a register of the builder. -/
def labelActionRegister : Register call (Option MplsActionCode) where
  read := NextHopBuilder.labelAction
  writes
    | .setLabelAction action => some (some action)
    | _ => none
  read_apply builder setter := by cases setter <;> rfl

/-- The label to swap is a register of the builder. -/
def swapLabelRegister : Register call (Option UInt32) where
  read := NextHopBuilder.swapLabel
  writes
    | .setSwapLabel swapLabel => some (some swapLabel)
    | _ => none
  read_apply builder setter := by cases setter <;> rfl

/-- The labels to push are a register of the builder. -/
def pushLabelsRegister : Register call (Option (List UInt32)) where
  read := NextHopBuilder.pushLabels
  writes
    | .setPushLabels pushLabels => some (some pushLabels)
    | _ => none
  read_apply builder setter := by cases setter <;> rfl

private theorem labelActionRegister_writes (setter : NextHopSetter) :
    labelActionRegister.writes setter ≠ none ↔ ∃ action, setter = .setLabelAction action := by
  cases setter <;> simp [labelActionRegister]

private theorem swapLabelRegister_writes (setter : NextHopSetter) :
    swapLabelRegister.writes setter ≠ none ↔ ∃ swapLabel, setter = .setSwapLabel swapLabel := by
  cases setter <;> simp [swapLabelRegister]

private theorem pushLabelsRegister_writes (setter : NextHopSetter) :
    pushLabelsRegister.writes setter ≠ none ↔ ∃ pushLabels, setter = .setPushLabels pushLabels := by
  cases setter <;> simp [pushLabelsRegister]

/-- The next hop without what `reset` leaves in the builder. -/
def restored (builder : NextHopBuilder) : NextHop :=
  { builder.build with labelAction := none, swapLabel := none, pushLabels := none }

private theorem restored_call (setter : NextHopSetter) (builder builder' : NextHopBuilder)
    (h : builder.restored = builder'.restored) :
    (builder.call setter).restored = (builder'.call setter).restored := by
  simp only [restored, build, NextHop.mk.injEq] at h
  cases setter <;> simp [restored, build, call, h]

private theorem build_eq_iff {builder builder' : NextHopBuilder} :
    builder.build = builder'.build ↔ builder.restored = builder'.restored ∧
      builder.labelAction = builder'.labelAction ∧ builder.swapLabel = builder'.swapLabel ∧
      builder.pushLabels = builder'.pushLabels := by
  simp only [restored, build, NextHop.mk.injEq]
  tauto

/-- The next hop after a reset is that of a fresh builder if its label fields are set again or were
never set. -/
theorem build_reset_iff (builder : NextHopBuilder) (second : List NextHopSetter) :
    (second.foldl call builder.reset).build = (second.foldl call {}).build ↔
      ((∃ action, .setLabelAction action ∈ second) ∨ builder.labelAction = none) ∧
      ((∃ swapLabel, .setSwapLabel swapLabel ∈ second) ∨ builder.swapLabel = none) ∧
      ((∃ pushLabels, .setPushLabels pushLabels ∈ second) ∨ builder.pushLabels = none) := by
  have hrestored : (second.foldl call builder.reset).restored = (second.foldl call {}).restored :=
    related_foldl restored_call second rfl
  have haction := labelActionRegister.read_foldl_eq_iff second builder.reset {}
  have hswap := swapLabelRegister.read_foldl_eq_iff second builder.reset {}
  have hpush := pushLabelsRegister.read_foldl_eq_iff second builder.reset {}
  rw [labelActionRegister.exists_writes_iff labelActionRegister_writes] at haction
  rw [swapLabelRegister.exists_writes_iff swapLabelRegister_writes] at hswap
  rw [pushLabelsRegister.exists_writes_iff pushLabelsRegister_writes] at hpush
  rw [build_eq_iff, and_iff_right hrestored]
  exact and_congr haction (and_congr hswap hpush)

end NextHopBuilder

/-- When a builder that was used and reset builds what a fresh builder builds after the same
calls. -/
theorem builders_reusable_iff (first second : List RouteSetter)
    (firstHop secondHop : List NextHopSetter) :
    let builder := first.foldl RouteBuilder.call {}
    let hopBuilder := firstHop.foldl NextHopBuilder.call {}
    ((second.foldl RouteBuilder.call builder.reset).build =
        (second.foldl RouteBuilder.call {}).build ↔
      ((∃ dst, .setDestination dst ∈ second) ∨ builder.dst = (.empty, 0)) ∧
      ((∃ mplsLabel, .setMplsLabel mplsLabel ∈ second) ∨ builder.mplsLabel = none) ∧
      ((∃ dst, .setDestination dst ∈ second) ∨ (∃ mplsLabel, .setMplsLabel mplsLabel ∈ second) ∨
        builder.family = AF_UNSPEC)) ∧
    ((secondHop.foldl NextHopBuilder.call hopBuilder.reset).build =
        (secondHop.foldl NextHopBuilder.call {}).build ↔
      ((∃ action, .setLabelAction action ∈ secondHop) ∨ hopBuilder.labelAction = none) ∧
      ((∃ swapLabel, .setSwapLabel swapLabel ∈ secondHop) ∨ hopBuilder.swapLabel = none) ∧
      ((∃ pushLabels, .setPushLabels pushLabels ∈ secondHop) ∨ hopBuilder.pushLabels = none)) :=
  ⟨RouteBuilder.build_reset_iff _ second, NextHopBuilder.build_reset_iff _ secondHop⟩

/-- A label that was set before the reset is in the next route, and one in the next next hop. -/
theorem labels_survive_reset :
    let builder := ([.setMplsLabel 100] : List RouteSetter).foldl RouteBuilder.call {}
    let hopBuilder := ([.setSwapLabel 200] : List NextHopSetter).foldl NextHopBuilder.call {}
    ((builder.reset.call (.setPriority 7)).build.mplsLabel = some 100 ∧
      (({} : RouteBuilder).call (.setPriority 7)).build.mplsLabel = none) ∧
    (hopBuilder.reset.call (.setWeight 1)).build.swapLabel = some 200 ∧
      (({} : NextHopBuilder).call (.setWeight 1)).build.swapLabel = none :=
  ⟨⟨rfl, rfl⟩, rfl, rfl⟩

end Fbmeshd
