import Fbmeshd.Rnl.EventHandlers

/-!
# The directory of interfaces

The kernel tells of every interface that appears, changes, is renamed or goes away. The parser
reads the message of a deletion as any other, and the directory is kept by name, so a name is
never forgotten. The directory is right exactly if no name is stale.
-/

namespace Fbmeshd

/-- A notification of the kernel about an interface: its deletion, or its present state. -/
structure LinkNotification where
  deleted : Bool := false
  link : Link

open Bytes Reader in
/-- The type of a message about a link, deletion or not, does not reach the handler. -/
theorem NetlinkProtocolSocket.parseNlMessage_link {pid : UInt32} {fuel nlh : ℕ} {m : Memory}
    {link : Link} (htype : u16 m (nlh + 4) = RTM_DELLINK ∨ u16 m (nlh + 4) = RTM_NEWLINK)
    (hlink : (NetlinkLinkMessage.parseMessage fuel nlh).eval m = .ok link) :
    (parseNlMessage pid fuel nlh).eval m = .ok (.link (.ofNat (u32 m (nlh + 8))) link) := by
  have hroute : ¬ (u16 m (nlh + 4) = RTM_NEWROUTE ∨ u16 m (nlh + 4) = RTM_DELROUTE) := by
    rcases htype with h | h <;> rw [h] <;> decide
  unfold parseNlMessage
  rw [eval_bind_of_ok (eval_u16At _), eval_bind_of_ok (eval_u32At _)]
  dsimp only
  rw [if_neg hroute, if_pos htype, eval_bind_of_ok hlink, eval_pure]

/-- What `processMessage` finds in the notification. -/
def LinkNotification.message (n : LinkNotification) : NlMessage := .link 0 n.link

/-- The name of an interface as the kernel last told it, if the interface still exists. -/
def currentName (ns : List LinkNotification) (ifIndex : UInt32) : Option (List UInt8) :=
  match Latest.latest (·.link.ifIndex) ifIndex ns with
  | some n => if n.deleted then none else some n.link.linkName
  | none => none

/-- Each name still belongs to the interface with which the kernel last told it. -/
def NoStaleName (ns : List LinkNotification) : Prop :=
  ∀ ifName n, Latest.latest (·.link.linkName) ifName ns = some n →
    currentName ns n.link.ifIndex = some ifName

/-- What the kernel guarantees: no two interfaces have the same name, and no index is -1. -/
structure KernelHistory (ns : List LinkNotification) : Prop where
  name_unique : ∀ i j ifName, currentName ns i = some ifName → currentName ns j = some ifName →
    i = j
  index_ne : ∀ n ∈ ns, n.link.ifIndex.toBitVec.toInt ≠ -1

namespace EventCaches

variable {order : IterationOrder (Σ _ : List UInt8, LinkAttribute)} {str : IPAddress → String}
  {ns : List LinkNotification} {ifName : List UInt8} {ifIndex : UInt32}

/-- The caches after notifications. -/
def afterNotifications (order : IterationOrder (Σ _ : List UInt8, LinkAttribute))
    (str : IPAddress → String) (ns : List LinkNotification) : EventCaches :=
  (ns.map LinkNotification.message).foldl (handle order str) {}

/-- The directory answers as the kernel's notifications say. -/
structure DirectoryExact (order : IterationOrder (Σ _ : List UInt8, LinkAttribute))
    (ns : List LinkNotification) (s : EventCaches) : Prop where
  getIfName_eq : ∀ ifIndex, s.getIfName order ifIndex = (currentName ns ifIndex).getD []
  getIfIndex_eq : ∀ ifIndex ifName, currentName ns ifIndex = some ifName →
    s.getIfIndex ifName = ifIndex.toBitVec.toInt
  getIfIndex_none : ∀ ifName, (∀ ifIndex, currentName ns ifIndex ≠ some ifName) →
    s.getIfIndex ifName = -1

variable (order str ns ifName) in
/-- The directory has the index that was last told with a name. -/
theorem lookup_afterNotifications :
    ((afterNotifications order str ns).links.lookup ifName).map (·.ifIndex) =
      (Latest.latest (·.link.linkName) ifName ns).map (·.link.ifIndex) := by
  have hstep : ∀ (s : EventCaches) (n : LinkNotification) (name : List UInt8),
      ((s.handle order str n.message).links.lookup name).map (·.ifIndex) =
        if n.link.linkName = name then some n.link.ifIndex
        else (s.links.lookup name).map (·.ifIndex) :=
    fun _ _ _ => lookup_doHandleLinkEvent
  have hempty : ((({} : EventCaches).links.lookup ifName).map (·.ifIndex)) = none := rfl
  rw [afterNotifications, List.foldl_map]
  exact Latest.record_foldl (fun (s : EventCaches) name => (s.links.lookup name).map (·.ifIndex))
    hstep hempty

private theorem getIfIndex_eq_lookup (s : EventCaches) :
    s.getIfIndex ifName =
      ((s.links.lookup ifName).map (·.ifIndex)).elim (-1) fun i => i.toBitVec.toInt := by
  unfold getIfIndex
  cases s.links.lookup ifName <;> rfl

/-- An interface has its name in the directory if no name is stale. -/
theorem latest_of_currentName (hkernel : KernelHistory ns) (hstale : NoStaleName ns)
    (h : currentName ns ifIndex = some ifName) :
    ∃ n, Latest.latest (·.link.linkName) ifName ns = some n ∧ n.link.ifIndex = ifIndex := by
  have hmem : ∃ n ∈ ns, n.link.linkName = ifName := by
    unfold currentName at h
    split at h
    next n hn =>
      split at h
      next => cases h
      next => exact ⟨n, Latest.mem_of_latest hn, Option.some.inj h⟩
    next => cases h
  obtain ⟨m, hm, hname⟩ := hmem
  obtain ⟨n, hn⟩ : ∃ n, Latest.latest (·.link.linkName) ifName ns = some n :=
    Latest.exists_latest hm hname
  exact ⟨n, hn, hkernel.name_unique _ _ _ (hstale ifName n hn) h⟩

/-- A name of the directory was told by the kernel, and last with its index. -/
theorem latest_of_lookup {attr : LinkAttribute}
    (h : (afterNotifications order str ns).links.lookup ifName = some attr) :
    ∃ n, Latest.latest (·.link.linkName) ifName ns = some n ∧ n.link.ifIndex = attr.ifIndex := by
  have hlatest := lookup_afterNotifications order str ns ifName
  rw [h, Option.map_some] at hlatest
  exact Option.map_eq_some_iff.mp hlatest.symm

variable (order str) in
private theorem getIfIndex_of_latest {n : LinkNotification}
    (h : Latest.latest (·.link.linkName) ifName ns = some n) :
    (afterNotifications order str ns).getIfIndex ifName = n.link.ifIndex.toBitVec.toInt := by
  rw [getIfIndex_eq_lookup, lookup_afterNotifications, h]
  rfl

/-- The directory is right, for names and for indices, exactly if no name is stale. -/
theorem directory_exact_iff (hkernel : KernelHistory ns) :
    DirectoryExact order ns (afterNotifications order str ns) ↔ NoStaleName ns := by
  constructor
  · -- A stale name has an index in the directory, and it should have another one or none.
    intro hexact ifName n hn
    have hindex := getIfIndex_of_latest order str hn
    by_cases hcurrent : ∃ i, currentName ns i = some ifName
    · obtain ⟨i, hi⟩ := hcurrent
      have hsame : n.link.ifIndex = i := by
        have htoInt := hindex.symm.trans (hexact.getIfIndex_eq i ifName hi)
        exact UInt32.toBitVec_inj.mp (BitVec.toInt_inj.mp htoInt)
      rwa [hsame]
    · have hnone := hexact.getIfIndex_none ifName fun i hi => hcurrent ⟨i, hi⟩
      exact absurd (hindex.symm.trans hnone) (hkernel.index_ne n (Latest.mem_of_latest hn))
  · intro hstale
    refine ⟨fun i => ?_, fun i ifName hi => ?_, fun ifName hnone => ?_⟩
    · obtain ⟨attr, hattr, hindex⟩ | ⟨hempty, hother⟩ :=
        getIfName_cases order i (afterNotifications order str ns)
      · obtain ⟨n, hn, hnindex⟩ := latest_of_lookup hattr
        have hcurrent := hstale _ n hn
        rw [hnindex.trans hindex] at hcurrent
        rw [hcurrent, Option.getD_some]
      · rw [hempty]
        cases hcurrent : currentName ns i with
        | none => rfl
        | some ifName =>
          -- The name of an existing interface would have its index.
          obtain ⟨n, hn, hnindex⟩ := latest_of_currentName hkernel hstale hcurrent
          have hlookup := lookup_afterNotifications order str ns ifName
          rw [hn, Option.map_some, Option.map_eq_some_iff] at hlookup
          obtain ⟨attr, hattr, hattrIndex⟩ := hlookup
          exact absurd (hattrIndex.trans hnindex) (hother ifName attr hattr)
    · obtain ⟨n, hn, hnindex⟩ := latest_of_currentName hkernel hstale hi
      rw [getIfIndex_of_latest order str hn, hnindex]
    · cases hn : Latest.latest (·.link.linkName) ifName ns with
      | none =>
        rw [getIfIndex_eq_lookup, lookup_afterNotifications, hn]
        rfl
      | some n => exact absurd (hstale ifName n hn) (hnone _)

/-- The names eth0 and wan0. -/
def eth0 : List UInt8 := [101, 116, 104, 48]

def wan0 : List UInt8 := [119, 97, 110, 48]

/-- A notification of an interface that exists, with its flags. -/
def present (ifName : List UInt8) (ifIndex flags : UInt32) : LinkNotification :=
  ⟨false, ⟨ifName, ifIndex, flags⟩⟩

/-- Two interfaces, one of which changes its state. -/
def twoInterfaces : List LinkNotification :=
  [present eth0 2 0x40, present wan0 3 0, present wan0 3 0x40]

private theorem currentName_twoInterfaces (i : UInt32) :
    currentName twoInterfaces i =
      if i = 3 then some wan0 else if i = 2 then some eth0 else none := by
  by_cases h3 : i = 3
  · subst h3
    decide
  · by_cases h2 : i = 2
    · subst h2
      decide
    · simp [currentName, Latest.latest, twoInterfaces, present, h3, h2, Ne.symm h3, Ne.symm h2]

private theorem noStaleName_twoInterfaces : NoStaleName twoInterfaces := by
  intro ifName n hn
  obtain rfl := Latest.key_of_latest hn
  have hmem := Latest.mem_of_latest hn
  simp only [twoInterfaces, List.mem_cons, List.not_mem_nil, or_false] at hmem
  rcases hmem with rfl | rfl | rfl <;> decide

private theorem kernelHistory_twoInterfaces : KernelHistory twoInterfaces := by
  refine ⟨fun i j ifName hi hj => ?_, by decide⟩
  have hne : eth0 ≠ wan0 := by decide
  rw [currentName_twoInterfaces] at hi hj
  grind

/-- The directory knows both of them. -/
theorem directory_exact_twoInterfaces :
    DirectoryExact (.given _) twoInterfaces
      (afterNotifications (.given _) (fun _ => "") twoInterfaces) :=
  (directory_exact_iff kernelHistory_twoInterfaces).mpr noStaleName_twoInterfaces

/-- An interface goes away, and another one is renamed. Both names stay in the directory. -/
theorem deleted_and_renamed_stay :
    let ns := [present eth0 2 0x40, ⟨true, ⟨eth0, 2, 0⟩⟩]
    let ms := [present eth0 2 0x40, present wan0 2 0x40]
    (currentName ns 2 = none ∧
      (afterNotifications (.given _) (fun _ => "") ns).getIfName (.given _) 2 = eth0 ∧
      (afterNotifications (.given _) (fun _ => "") ns).getIfIndex eth0 = 2) ∧
    currentName ms 2 = some wan0 ∧
      (afterNotifications (.given _) (fun _ => "") ms).getIfIndex eth0 = 2 := by
  decide

end EventCaches

end Fbmeshd
