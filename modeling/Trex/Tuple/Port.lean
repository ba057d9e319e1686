/-
# The source ports of a client

`CIpInfo` (`tuple_gen.h`) hands out the source ports of one client: a bitmap of the ports in use,
and a head from which the next free port is searched.  The search looks at the head and at 20 ports
behind it, and gives up when they are all in use.  `CIpInfoL`, for pools with many clients, keeps
the head only.

* a port is a number; the 16-bit head is at most `MAX_PORT + 1`, so it does not wrap;
* `is_port_available` returns `PORT_IN_USE`, which is `true`, for a port that is not legal; the head
  is made legal before it is asked.
-/
import Mathlib.Order.Interval.Finset.Nat

namespace Trex.Tuple

open List

/-! ## 1. The allocator with a bitmap -/

/-- `MAX_PORT` -/
def maxPort : Nat := 64000

/-- `MIN_PORT` -/
def minPort : Nat := 1024

/-- `ILLEGAL_PORT` -/
def illegalPort : Nat := 0

/-- `CIpInfo` -/
structure CIpInfo where
  /-- `m_bitmap_port`: whether the port is `PORT_IN_USE`. -/
  bitmapPort : Nat → Bool
  headPort : Nat

/-- `is_port_legal` -/
def isPortLegal (port : Nat) : Bool := !(decide (port ≥ maxPort) || decide (port < minPort))

/-- The assertions of `return_port`. -/
inductive PortFault
  | notLegal
  | notInUse
deriving DecidableEq, Repr

namespace CIpInfo

/-- The constructor. -/
def create : CIpInfo := { bitmapPort := fun _ => false, headPort := minPort }

/-- `is_port_available` -/
def isPortAvailable (c : CIpInfo) (port : Nat) : Bool :=
  if !isPortLegal port then true else c.bitmapPort port == false

/-- `m_head_port++` in the loop. -/
def nextPort (port : Nat) : Nat := if port + 1 ≥ maxPort then minPort else port + 1

/-- The loop of `get_next_free_port_by_bit`, with the number of ports that are still looked at. -/
def probe : Nat → CIpInfo → CIpInfo
  | 0, c => c
  | tries + 1, c =>
    if c.isPortAvailable c.headPort then c
      else probe tries { c with headPort := nextPort c.headPort }

/-- The port that the search starts at. -/
def startPort (c : CIpInfo) : Nat := if isPortLegal c.headPort then c.headPort else minPort

/-- `get_next_free_port_by_bit` -/
def getNextFreePortByBit (c : CIpInfo) : CIpInfo := probe 20 { c with headPort := c.startPort }

/-- `get_new_free_port` -/
def getNewFreePort (c : CIpInfo) : Nat × CIpInfo :=
  let c := c.getNextFreePortByBit
  if !c.isPortAvailable c.headPort then (illegalPort, { c with headPort := minPort })
  else
    (c.headPort,
      { bitmapPort := Function.update c.bitmapPort c.headPort true
        headPort := if c.headPort + 1 > maxPort then minPort else c.headPort + 1 })

/-- `return_port` -/
def returnPort (c : CIpInfo) (port : Nat) : Except PortFault CIpInfo :=
  if !isPortLegal port then .error .notLegal
  else if c.bitmapPort port = false then .error .notInUse
  else .ok { c with bitmapPort := Function.update c.bitmapPort port false }

/-- `return_all_ports` -/
def returnAllPorts (_ : CIpInfo) : CIpInfo := create

end CIpInfo

/-- `CIpInfoL` -/
structure CIpInfoL where
  currPort : Nat
deriving DecidableEq, Repr

namespace CIpInfoL

/-- The constructor. -/
def create : CIpInfoL := { currPort := minPort }

/-- `get_new_free_port` -/
def getNewFreePort (c : CIpInfoL) : Nat × CIpInfoL :=
  let port := if c.currPort > maxPort then minPort else c.currPort
  (port, { currPort := port + 1 })

/-- `return_port` -/
def returnPort (c : CIpInfoL) (_ : Nat) : CIpInfoL := c

/-- `return_all_ports` -/
def returnAllPorts (_ : CIpInfoL) : CIpInfoL := create

end CIpInfoL

/-! ## 2. The search -/

theorem isPortLegal_iff {port : Nat} :
    isPortLegal port = true ↔ minPort ≤ port ∧ port < maxPort := by
  simp only [isPortLegal, Bool.not_eq_true', Bool.or_eq_false_iff, decide_eq_false_iff_not]
  omega

namespace CIpInfo

variable {c c' : CIpInfo} {port : Nat}

theorem startPort_legal (c : CIpInfo) : isPortLegal c.startPort = true := by
  unfold startPort
  split
  · assumption
  · decide

theorem nextPort_legal (h : isPortLegal port = true) : isPortLegal (nextPort port) = true := by
  rw [isPortLegal_iff] at h ⊢
  have hmin : minPort = 1024 := rfl
  have hmax : maxPort = 64000 := rfl
  unfold nextPort
  split <;> omega

/-- A legal port is available when its bit is not set. -/
theorem isPortAvailable_eq (h : isPortLegal port = true) :
    c.isPortAvailable port = !c.bitmapPort port := by
  rw [isPortAvailable, h]
  cases c.bitmapPort port <;> rfl

/-- **The search stops at the first free port**, or it has looked at `tries + 1` ports in use. -/
theorem probe_spec (tries : Nat) (h : isPortLegal c.headPort = true) :
    (probe tries c).bitmapPort = c.bitmapPort ∧ isPortLegal (probe tries c).headPort = true ∧
      (c.bitmapPort (probe tries c).headPort = true →
        ∀ i ≤ tries, c.bitmapPort (nextPort^[i] c.headPort) = true) := by
  induction tries generalizing c with
  | zero =>
    refine ⟨rfl, h, ?_⟩
    intro hused i hi
    obtain rfl := Nat.le_zero.mp hi
    exact hused
  | succ tries ih =>
    rw [probe, isPortAvailable_eq h]
    cases hused : c.bitmapPort c.headPort with
    | false =>
      refine ⟨rfl, h, ?_⟩
      intro hused'
      rw [Bool.not_false, if_pos rfl, hused] at hused'
      cases hused'
    | true =>
      obtain ⟨hmap, hlegal, hall⟩ :=
        ih (c := { c with headPort := nextPort c.headPort }) (nextPort_legal h)
      refine ⟨hmap, hlegal, ?_⟩
      intro hlast i hi
      cases i with
      | zero => exact hused
      | succ i => exact hall hlast i (by omega)

theorem getNextFreePortByBit_spec (c : CIpInfo) :
    c.getNextFreePortByBit.bitmapPort = c.bitmapPort ∧
      isPortLegal c.getNextFreePortByBit.headPort = true ∧
      (c.bitmapPort c.getNextFreePortByBit.headPort = true →
        ∀ i ≤ 20, c.bitmapPort (nextPort^[i] c.startPort) = true) :=
  probe_spec 20 c.startPort_legal

/-- **What an allocation does**: it marks a legal port that was free, or all that were looked at are
in use. -/
theorem getNewFreePort_spec (c : CIpInfo) :
    ((c.getNewFreePort).1 = illegalPort ∧ (c.getNewFreePort).2.bitmapPort = c.bitmapPort ∧
        ∀ i ≤ 20, c.bitmapPort (nextPort^[i] c.startPort) = true) ∨
      (isPortLegal (c.getNewFreePort).1 = true ∧ c.bitmapPort (c.getNewFreePort).1 = false ∧
        (c.getNewFreePort).2.bitmapPort = Function.update c.bitmapPort (c.getNewFreePort).1
            true) := by
  obtain ⟨hmap, hlegal, hall⟩ := c.getNextFreePortByBit_spec
  have havail : c.getNextFreePortByBit.isPortAvailable c.getNextFreePortByBit.headPort =
      !c.bitmapPort c.getNextFreePortByBit.headPort := by
    rw [isPortAvailable_eq hlegal, hmap]
  rw [getNewFreePort]
  cases hused : c.bitmapPort c.getNextFreePortByBit.headPort with
  | true =>
    left
    rw [havail, hused]
    exact ⟨rfl, hmap, hall hused⟩
  | false =>
    right
    rw [havail, hused, Bool.not_false, Bool.not_true, if_neg Bool.false_ne_true, hmap]
    exact ⟨hlegal, hused, rfl⟩

theorem returnPort_eq (hlegal : isPortLegal port = true) (hused : c.bitmapPort port = true) :
    c.returnPort port = .ok { c with bitmapPort := Function.update c.bitmapPort port false } := by
  rw [returnPort, hlegal, hused]
  rfl

/-! ## 3. Histories -/

/-- The ports that are marked. -/
def portsInUse (c : CIpInfo) :
    Finset Nat := (Finset.range maxPort).filter fun port => c.bitmapPort port = true

/-- **The states that the operations reach**, with the ports that are handed out, and how many were
handed out and returned so far.  A port is returned when it is handed out. -/
inductive History : CIpInfo → List Nat → Nat → Nat → Prop
  | created : History create [] 0 0
  | failed {c c' : CIpInfo} {out : List Nat} {given returned : Nat} : History c out given returned →
      c.getNewFreePort = (illegalPort, c') → History c' out given returned
  | got {c c' : CIpInfo} {out : List Nat} {given returned port : Nat} :
      History c out given returned →
      c.getNewFreePort = (port, c') → port ≠ illegalPort →
        History c' (port :: out) (given + 1) returned
  | returned {c c' : CIpInfo} {out : List Nat} {given returned port : Nat} :
      History c out given returned →
      port ∈ out → c.returnPort port = .ok c' → History c' (out.erase port) given (returned + 1)
  | returnedAll {c : CIpInfo} {out : List Nat} {given returned : Nat} :
      History c out given returned →
      History c.returnAllPorts [] given (returned + out.length)

/-- **The invariant**: the ports that are handed out are legal, differ, and are the marked ones. -/
structure Marks (c : CIpInfo) (out : List Nat) : Prop where
  legal : ∀ port ∈ out, isPortLegal port = true
  nodup : out.Nodup
  marked : ∀ port, c.bitmapPort port = true ↔ port ∈ out

theorem Marks.create : Marks create [] :=
  ⟨fun _ h => absurd h not_mem_nil, nodup_nil, fun _ => by simp [CIpInfo.create]⟩

variable {out : List Nat}

theorem Marks.get (h : Marks c out) (hget : c.getNewFreePort = (port, c'))
    (hne : port ≠ illegalPort) : Marks c' (port :: out) := by
  rcases c.getNewFreePort_spec with ⟨hill, -, -⟩ | ⟨hlegal, hfree, hmap⟩
  · rw [hget] at hill
    exact absurd hill hne
  · rw [hget] at hlegal hfree hmap
    dsimp only at hlegal hfree hmap
    have hnot : port ∉ out := by
      intro hmem
      rw [(h.marked port).mpr hmem] at hfree
      cases hfree
    refine ⟨?_, nodup_cons.mpr ⟨hnot, h.nodup⟩, ?_⟩
    · intro q hq
      rcases mem_cons.mp hq with rfl | hq
      · exact hlegal
      · exact h.legal q hq
    · intro q
      rw [hmap, mem_cons, ← h.marked q]
      by_cases hqp : q = port
      · simp [hqp]
      · simp [hqp]

theorem Marks.fail (h : Marks c out) (hget : c.getNewFreePort = (illegalPort, c')) :
    Marks c' out := by
  rcases c.getNewFreePort_spec with ⟨-, hmap, -⟩ | ⟨hlegal, -, -⟩
  · rw [hget] at hmap
    dsimp only at hmap
    exact ⟨h.legal, h.nodup, fun q => by rw [hmap]; exact h.marked q⟩
  · rw [hget] at hlegal
    exact absurd (show isPortLegal illegalPort = true from hlegal) (by decide)

theorem Marks.ret (h : Marks c out) (port : Nat) :
    Marks { c with bitmapPort := Function.update c.bitmapPort port false } (out.erase port) := by
  refine ⟨fun q hq => h.legal q (mem_of_mem_erase hq), h.nodup.erase port, ?_⟩
  intro q
  rw [h.nodup.mem_erase_iff]
  by_cases hqp : q = port
  · simp [hqp]
  · simp [hqp, h.marked q]

/-- The marked ports are as many as the ports that are handed out. -/
theorem Marks.card (h : Marks c out) : c.portsInUse.card = out.length := by
  have heq : c.portsInUse = out.toFinset := by
    ext q
    rw [portsInUse, Finset.mem_filter, Finset.mem_range, mem_toFinset, h.marked q]
    constructor
    · exact And.right
    · intro hq
      exact ⟨(isPortLegal_iff.mp (h.legal q hq)).2, hq⟩
  rw [heq, toFinset_card_of_nodup h.nodup]

/-- The invariant along a history, with the numbers. -/
theorem History.marks {given returned : Nat} (h : History c out given returned) :
    Marks c out ∧ out.length + returned = given := by
  induction h with
  | created => exact ⟨Marks.create, rfl⟩
  | failed _ hget ih => exact ⟨ih.1.fail hget, ih.2⟩
  | got _ hget hne ih =>
    refine ⟨ih.1.get hget hne, ?_⟩
    rw [length_cons, ← ih.2]
    omega
  | returned _ hmem hret ih =>
    rw [returnPort_eq (ih.1.legal _ hmem) ((ih.1.marked _).mpr hmem)] at hret
    cases hret
    refine ⟨ih.1.ret _, ?_⟩
    have hpos := length_pos_of_mem hmem
    rw [length_erase_of_mem hmem, ← ih.2]
    omega
  | returnedAll _ ih =>
    refine ⟨Marks.create, ?_⟩
    rw [length_nil, ← ih.2]
    omega

/-- **The allocator of source ports**: after every history, a port that is handed out is legal and
not handed out to anyone else, none is handed out only when the 21 ports from the head are in use,
the number of marked ports is the number handed out less the number returned, and every port can be
returned. -/
theorem history_spec {out : List Nat} {given returned : Nat} (h : History c out given returned) :
    ((c.getNewFreePort).1 = illegalPort ∨
      (1024 ≤ (c.getNewFreePort).1 ∧ (c.getNewFreePort).1 ≤ 63999 ∧ (c.getNewFreePort).1 ∉ out)) ∧
    ((c.getNewFreePort).1 = illegalPort → ∀ i ≤ 20, nextPort^[i] c.startPort ∈ out) ∧
    c.portsInUse.card = given - returned ∧ out.Nodup ∧
    (∀ port ∈ out, ∃ c', c.returnPort port = .ok c') := by
  obtain ⟨hmarks, hlen⟩ := h.marks
  refine ⟨?_, ?_, ?_, hmarks.nodup, ?_⟩
  · rcases c.getNewFreePort_spec with ⟨hill, -, -⟩ | ⟨hlegal, hfree, -⟩
    · exact Or.inl hill
    · right
      obtain ⟨hmin, hmax⟩ := isPortLegal_iff.mp hlegal
      refine ⟨hmin, Nat.le_of_lt_succ hmax, ?_⟩
      intro hmem
      rw [(hmarks.marked _).mpr hmem] at hfree
      cases hfree
  · intro hill i hi
    rcases c.getNewFreePort_spec with ⟨-, -, hall⟩ | ⟨hlegal, -, -⟩
    · exact (hmarks.marked _).mp (hall i hi)
    · rw [hill] at hlegal
      exact absurd hlegal (by decide)
  · rw [hmarks.card]
    omega
  · intro port hmem
    exact ⟨_, returnPort_eq (hmarks.legal port hmem) ((hmarks.marked port).mpr hmem)⟩

/-- Two ports are handed out and the first is returned: the next one is the third. -/
theorem history_spec_third : ∃ c out, History c out 2 1 ∧ out = [1025] ∧
    (c.getNewFreePort).1 = 1026 ∧
    (c.getNewFreePort).1 ∉ out ∧ c.portsInUse.card = 2 - 1 := by
  have h2 : History create.getNewFreePort.2.getNewFreePort.2 [1025, 1024] 2 0 :=
    .got (.got .created rfl (by decide)) rfl (by decide)
  have hmem : 1024 ∈ [1025, 1024] := by decide
  obtain ⟨-, -, -, -, hret⟩ := history_spec h2
  obtain ⟨c, hc⟩ := hret 1024 hmem
  have hthird : (c.getNewFreePort).1 = 1026 := by
    cases hc
    decide +kernel
  have h3 := History.returned h2 hmem hc
  obtain ⟨hport, -, hcard, -, -⟩ := history_spec h3
  refine ⟨c, _, h3, rfl, hthird, ?_, hcard⟩
  rcases hport with hill | ⟨-, -, hnot⟩
  · rw [hthird] at hill
    cases hill
  · exact hnot

end CIpInfo

end Trex.Tuple
