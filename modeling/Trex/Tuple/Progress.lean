/-
# Whether a free port is found again

`get_next_free_port_by_bit` (`tuple_gen.h`) looks at 21 ports from the head.  When they are all in
use, `get_new_free_port` gives up and puts the head back to `MIN_PORT`, so the next call looks at
the 21 ports from `MIN_PORT`, and after another failure at the same ports again.  The head moves on
only when a port is handed out.

`progress_iff` says which free ports are reached: those in one of the two windows.  `client_stuck`
is a client that has a free port and gets none, however often it asks: it had all its ports in use,
and one in the middle is returned.
-/
import Trex.Tuple.Port

namespace Trex.Tuple

open List
open Function (update update_idem update_of_ne update_self)

/-- The number of legal ports. -/
def legalPorts : Nat := maxPort - minPort

namespace CIpInfo

variable {c : CIpInfo} {out : List Nat} {given returned port : Nat}

/-! ## 1. What one call does -/

/-- The search ends at one of the ports that it looks at. -/
theorem probe_headPort (tries : Nat) (c : CIpInfo) :
    ∃ i ≤ tries, (probe tries c).headPort = nextPort^[i] c.headPort := by
  induction tries generalizing c with
  | zero => exact ⟨0, Nat.le_refl 0, rfl⟩
  | succ tries ih =>
    rw [probe]
    split
    · exact ⟨0, Nat.zero_le _, rfl⟩
    · obtain ⟨i, hi, hhead⟩ := ih { c with headPort := nextPort c.headPort }
      exact ⟨i + 1, by omega, hhead⟩

/-- **A call fails** when the 21 ports that it looks at are in use, and only then. -/
theorem getNewFreePort_illegal_iff (c : CIpInfo) :
    (c.getNewFreePort).1 = illegalPort ↔
        ∀ i ≤ 20, c.bitmapPort (nextPort^[i] c.startPort) = true := by
  constructor
  · intro hill
    rcases c.getNewFreePort_spec with ⟨-, -, hall⟩ | ⟨hlegal, -, -⟩
    · exact hall
    · rw [hill] at hlegal
      exact absurd hlegal (by decide)
  · intro hall
    obtain ⟨hmap, hlegal, -⟩ := c.getNextFreePortByBit_spec
    obtain ⟨i, hi, hhead⟩ := probe_headPort 20 { c with headPort := c.startPort }
    have hused : c.bitmapPort c.getNextFreePortByBit.headPort = true := by
      rw [getNextFreePortByBit, hhead]
      exact hall i hi
    have havail : c.getNextFreePortByBit.isPortAvailable c.getNextFreePortByBit.headPort =
        false := by
      rw [isPortAvailable_eq hlegal, hmap, hused]
      rfl
    rw [getNewFreePort, havail]
    rfl

/-- A call that does not fail gives a legal port. -/
theorem getNewFreePort_legal_iff (c : CIpInfo) :
    isPortLegal (c.getNewFreePort).1 = true ↔ (c.getNewFreePort).1 ≠ illegalPort := by
  constructor
  · intro hlegal hill
    rw [hill] at hlegal
    exact absurd hlegal (by decide)
  · intro hne
    rcases c.getNewFreePort_spec with ⟨hill, -, -⟩ | ⟨hlegal, -, -⟩
    · exact absurd hill hne
    · exact hlegal

/-- A call that fails leaves the ports as they are, with the head at `MIN_PORT`. -/
theorem getNewFreePort_failed (hill : (c.getNewFreePort).1 = illegalPort) :
    (c.getNewFreePort).2 = { c with headPort := minPort } := by
  obtain ⟨hmap, hlegal, -⟩ := c.getNextFreePortByBit_spec
  rw [getNewFreePort] at hill ⊢
  split at hill
  · rename_i havail
    rw [if_pos havail, hmap]
  · dsimp only at hill
    rw [hill] at hlegal
    exact absurd hlegal (by decide)

/-! ## 2. Calls one after another -/

/-- The client after `n` calls of `get_new_free_port`. -/
def afterCalls (n : Nat) (c : CIpInfo) : CIpInfo := (fun c => (c.getNewFreePort).2)^[n] c

/-- **One of the next calls gives a port**, within as many calls as there are legal ports. -/
def Progress (c : CIpInfo) :
    Prop := ∃ n < legalPorts, isPortLegal ((c.afterCalls n).getNewFreePort).1 = true

/-- A free port is among the 21 that a search from the head looks at, or from `MIN_PORT`. -/
def InWindow (c : CIpInfo) : Prop :=
  ∃ i ≤ 20, c.bitmapPort (nextPort^[i] c.startPort) = false ∨
    c.bitmapPort (nextPort^[i] minPort) = false

theorem startPort_minPort (c : CIpInfo) :
    ({ c with headPort := minPort } : CIpInfo).startPort = minPort :=
  if_pos (show isPortLegal minPort = true by decide)

/-- With both windows in use every call fails, and the head stays at `MIN_PORT` from the second
on. -/
theorem afterCalls_stuck (hno : ¬ c.InWindow) (n : Nat) :
    ((c.afterCalls n).getNewFreePort).1 = illegalPort ∧
      (c.afterCalls (n + 1)) = { c with headPort := minPort } := by
  have hused : ∀ i ≤ 20, c.bitmapPort (nextPort^[i] c.startPort) = true ∧
      c.bitmapPort (nextPort^[i] minPort) = true := by
    intro i hi
    constructor
    · exact Bool.eq_true_of_not_eq_false fun hfree => hno ⟨i, hi, .inl hfree⟩
    · exact Bool.eq_true_of_not_eq_false fun hfree => hno ⟨i, hi, .inr hfree⟩
  induction n with
  | zero =>
    have hill := (getNewFreePort_illegal_iff c).mpr fun i hi => (hused i hi).1
    exact ⟨hill, getNewFreePort_failed hill⟩
  | succ n ih =>
    rw [ih.2]
    have hill := (getNewFreePort_illegal_iff { c with headPort := minPort }).mpr fun i hi =>
      (hused i hi).2
    refine ⟨hill, ?_⟩
    calc c.afterCalls (n + 2)
        = ((c.afterCalls (n + 1)).getNewFreePort).2 := Function.iterate_succ_apply' _ _ _
      _ = (({ c with headPort := minPort } : CIpInfo).getNewFreePort).2 := by rw [ih.2]
      _ = { c with headPort := minPort } := getNewFreePort_failed hill

/-- With a free port in one of the windows the first call gives a port, or the second. -/
theorem progress_of_inWindow (h : c.InWindow) : c.Progress := by
  by_cases hill : (c.getNewFreePort).1 = illegalPort
  · refine ⟨1, by decide, ?_⟩
    show isPortLegal (((c.getNewFreePort).2).getNewFreePort).1 = true
    rw [getNewFreePort_failed hill, getNewFreePort_legal_iff, Ne, getNewFreePort_illegal_iff]
    intro hall
    obtain ⟨i, hi, hfree | hfree⟩ := h
    · have hused := (getNewFreePort_illegal_iff c).mp hill i hi
      rw [hfree] at hused
      cases hused
    · have hused := hall i hi
      rw [startPort_minPort] at hused
      rw [show c.bitmapPort (nextPort^[i] minPort) = true from hused] at hfree
      cases hfree
  · exact ⟨0, by decide, (getNewFreePort_legal_iff c).mpr hill⟩

/-- **A free port is reached** exactly when one is in the window of the head or in the window of
`MIN_PORT`. -/
theorem progress_iff_inWindow (c : CIpInfo) : c.Progress ↔ c.InWindow := by
  constructor
  · rintro ⟨n, -, hlegal⟩
    by_contra hno
    rw [(afterCalls_stuck hno n).1] at hlegal
    exact absurd hlegal (by decide)
  · exact progress_of_inWindow

/-- A port is free when it is not handed out. -/
theorem inWindow_iff_out (h : History c out given returned) :
    c.InWindow ↔ ∃ i ≤ 20, nextPort^[i] c.startPort ∉ out ∨ nextPort^[i] minPort ∉ out := by
  have hfree : ∀ port, c.bitmapPort port = false ↔ port ∉ out := by
    intro port
    rw [← h.marks.1.marked port, Bool.not_eq_true]
  unfold InWindow
  simp only [hfree]

/-- **The allocator makes progress in the states from which a free port can be seen**: after every
history, a client that has a free port gets one within as many calls as there are legal ports if and
only if a port that is not handed out is among the 21 from the head, or among the 21 from
`MIN_PORT`. -/
theorem progress_iff (h : History c out given returned) :
    ((∃ port, isPortLegal port = true ∧ port ∉ out) → c.Progress) ↔
      ((∃ port, isPortLegal port = true ∧ port ∉ out) →
        ∃ i ≤ 20, nextPort^[i] c.startPort ∉ out ∨ nextPort^[i] minPort ∉ out) := by
  rw [progress_iff_inWindow, inWindow_iff_out h]

/-! ## 3. A client that is stuck, and one that is not

Both have handed out all their ports and got one back.  The head of the first one is behind the last
port, so that it looks at the ports from `MIN_PORT` only, and what it got back is not there.  The
head of the second one has gone on past `MIN_PORT`: the ports that it sees first are in use, and
what it got back is found from `MIN_PORT`. -/

/-- A client whose first `n` ports are in use. -/
def filled (n : Nat) : CIpInfo :=
  { bitmapPort := fun port => decide (minPort ≤ port ∧ port < minPort + n),
    headPort := minPort + n }

/-- The ports that it has handed out, the last one first. -/
def filledPorts (n : Nat) : List Nat := ((List.range n).map (minPort + ·)).reverse

theorem filled_next {n : Nat} (h : n < legalPorts) :
    (filled n).getNewFreePort = (minPort + n, filled (n + 1)) := by
  have hspan : legalPorts = 62976 := rfl
  have hmin : minPort = 1024 := rfl
  have hmax : maxPort = 64000 := rfl
  have hlegal : isPortLegal (filled n).headPort = true := by
    rw [isPortLegal_iff]
    show minPort ≤ minPort + n ∧ minPort + n < maxPort
    omega
  have hfree : (filled n).isPortAvailable (filled n).headPort = true := by
    rw [isPortAvailable_eq hlegal]
    show (!decide (minPort ≤ minPort + n ∧ minPort + n < minPort + n)) = true
    simp
  have hnext : (filled n).getNextFreePortByBit = filled n := by
    rw [getNextFreePortByBit, startPort, if_pos hlegal]
    show probe 20 (filled n) = filled n
    rw [probe, if_pos hfree]
  rw [getNewFreePort, hnext, hfree]
  show (minPort + n, ({ bitmapPort := update (filled n).bitmapPort (minPort + n) true
                        headPort := if minPort + n + 1 > maxPort then minPort
                          else minPort + n + 1 } : CIpInfo))
    = (minPort + n, filled (n + 1))
  rw [if_neg (by omega)]
  congr 2
  funext port
  show update (filled n).bitmapPort (minPort + n) true port =
    decide (minPort ≤ port ∧ port < minPort + (n + 1))
  by_cases hport : port = minPort + n
  · subst hport
    rw [update_self]
    simp
  · rw [update_of_ne hport]
    show decide (minPort ≤ port ∧ port < minPort + n) = decide (minPort ≤ port ∧
      port < minPort + (n + 1))
    exact decide_eq_decide.mpr (by omega)

theorem filledPorts_succ (n : Nat) : filledPorts (n + 1) = (minPort + n) :: filledPorts n := by
  rw [filledPorts, range_succ, map_append, reverse_append]
  rfl

/-- It takes the ports in turn to fill a client. -/
theorem history_filled {n : Nat} (h : n ≤ legalPorts) : History (filled n) (filledPorts n) n 0 := by
  induction n with
  | zero =>
    have hcreate : filled 0 = create := by
      unfold filled create
      congr 1
      funext port
      exact decide_eq_false (by omega)
    rw [hcreate]
    exact .created
  | succ n ih =>
    rw [filledPorts_succ]
    refine .got (ih (by omega)) (filled_next (by omega)) ?_
    unfold minPort illegalPort
    omega

theorem mem_filledPorts {n : Nat} : port ∈ filledPorts n ↔ minPort ≤ port ∧ port < minPort + n := by
  rw [filledPorts, mem_reverse, mem_map]
  constructor
  · rintro ⟨i, hi, rfl⟩
    rw [mem_range] at hi
    omega
  · rintro ⟨hle, hlt⟩
    exact ⟨port - minPort, mem_range.mpr (by omega), by omega⟩

/-- All the ports are handed out, and the port 2000 is returned. -/
def stuck : CIpInfo := { filled legalPorts with
    bitmapPort := update (filled legalPorts).bitmapPort 2000 false }

theorem history_stuck : History stuck ((filledPorts legalPorts).erase 2000) legalPorts 1 := by
  have h := history_filled (Nat.le_refl legalPorts)
  have hmem : 2000 ∈ filledPorts legalPorts := mem_filledPorts.mpr (by decide)
  exact .returned h hmem (returnPort_eq (by decide) ((h.marks.1.marked 2000).mpr hmem))

/-- The ports of the two windows of this client. -/
theorem stuck_window : ∀ i ≤ 20, stuck.bitmapPort (nextPort^[i] minPort) = true := by
  decide +kernel

/-- **A free port that no call finds**: the head of this client is behind the last port, so every
search starts at `MIN_PORT`, and the ports there are in use. -/
theorem client_stuck :
    History stuck ((filledPorts legalPorts).erase 2000) legalPorts 1 ∧
      isPortLegal 2000 = true ∧ 2000 ∉ (filledPorts legalPorts).erase 2000 ∧
      ∀ n < legalPorts, isPortLegal ((stuck.afterCalls n).getNewFreePort).1 = false := by
  have hmarks := history_stuck.marks.1
  refine ⟨history_stuck, by decide, ?_, ?_⟩
  · rw [← hmarks.marked 2000]
    exact Bool.false_ne_true
  · intro n _
    have hno : ¬ stuck.InWindow := by
      rintro ⟨i, hi, hfree | hfree⟩
      · have hused := stuck_window i hi
        rw [show stuck.startPort = minPort from if_neg (by decide), hused] at hfree
        cases hfree
      · rw [stuck_window i hi] at hfree
        cases hfree
    rw [(afterCalls_stuck hno n).1]
    rfl

/-- The head of a full client is behind the last port, so that `MIN_PORT` is found when it was
returned. -/
theorem getNewFreePort_minPort :
    ({ filled legalPorts with
        bitmapPort := update (filled legalPorts).bitmapPort minPort false } :
          CIpInfo).getNewFreePort =
      (minPort, { bitmapPort := update (update (filled legalPorts).bitmapPort minPort false)
                    minPort true
                  headPort := minPort + 1 }) := rfl

/-- All the ports are handed out, and `MIN_PORT` is returned, handed out again and returned. -/
def turned : CIpInfo :=
  { bitmapPort := update (filled legalPorts).bitmapPort minPort false, headPort := minPort + 1 }

theorem history_turned : History turned ((filledPorts legalPorts).erase minPort) (legalPorts + 1)
    2 := by
  have hfilled := history_filled (Nat.le_refl legalPorts)
  have hmem : minPort ∈ filledPorts legalPorts := mem_filledPorts.mpr (by decide)
  have hfirst := History.returned hfilled hmem
    (returnPort_eq (by decide) ((hfilled.marks.1.marked _).mpr hmem))
  have hagain := History.got hfirst getNewFreePort_minPort (by decide)
  have hused : minPort ∈ minPort :: (filledPorts legalPorts).erase minPort := mem_cons_self
  have hlast := History.returned hagain hused
    (returnPort_eq (by decide) ((hagain.marks.1.marked _).mpr hused))
  rw [erase_cons_head] at hlast
  simp only [update_idem] at hlast
  exact hlast

/-- The ports of the window of its head are in use, and the second call gives `MIN_PORT`. -/
theorem progress_iff_turned :
    (∀ i ≤ 20, turned.bitmapPort (nextPort^[i] turned.startPort) = true) ∧ turned.Progress := by
  have hfree : minPort ∉ (filledPorts legalPorts).erase minPort := by
    rw [← history_turned.marks.1.marked minPort]
    decide
  refine ⟨by decide +kernel, (progress_iff history_turned).mpr ?_ ⟨minPort, by decide, hfree⟩⟩
  exact fun _ => ⟨0, by decide, Or.inr hfree⟩

end CIpInfo

end Trex.Tuple
