/-
# The clients of a MAC file

With a MAC file `CClientPool::Create` (`tuple_gen.cpp`) makes clients for the addresses that are in
the file only. It counts them for the size of the vector, and puts every client at the offset of its
address in the range.  The test `GenerateTupleMac` has a file with the first two addresses of the
range.

`create_iff` says for which files this works: those that have the first addresses of the range.
With a gap the last client of the file is put past the end of the vector.
-/
import Trex.Tuple.Client

namespace Trex.Tuple.Full

/-! ## 1. The mapped addresses -/

section Counting

variable (macInfo : MacInfo) (minIp : UInt32)

/-- The address with the index `idx` is in the file. -/
def Mapped (idx : Nat) : Prop := (macInfo (addressOf minIp idx)).isSome = true

/-- The mapped ones of the first `n` addresses. -/
def mappedBelow (n : Nat) : Finset Nat :=
  (Finset.range n).filter fun idx => (macInfo (addressOf minIp idx)).isSome = true

variable {macInfo minIp}

theorem mem_mappedBelow {n idx : Nat} :
    idx ∈ mappedBelow macInfo minIp n ↔ idx < n ∧ Mapped macInfo minIp idx := by
  rw [mappedBelow, Finset.mem_filter, Finset.mem_range]
  rfl

variable (macInfo minIp) in
theorem mappedBelow_subset (n : Nat) :
    mappedBelow macInfo minIp n ⊆ Finset.range n := Finset.filter_subset _ _

variable (macInfo minIp) in
theorem card_mappedBelow_le (n : Nat) : (mappedBelow macInfo minIp n).card ≤ n := by
  have h := Finset.card_le_card (mappedBelow_subset macInfo minIp n)
  rwa [Finset.card_range] at h

theorem card_mappedBelow_succ (n : Nat) : (mappedBelow macInfo minIp (n + 1)).card =
    (mappedBelow macInfo minIp n).card + if (macInfo (addressOf minIp n)).isSome then 1 else 0 := by
  unfold mappedBelow
  rw [Finset.range_add_one, Finset.filter_insert]
  split
  · rw [Finset.card_insert_of_notMem]
    intro hmem
    exact absurd (Finset.mem_range.mp (Finset.mem_filter.mp hmem).1) (Nat.lt_irrefl n)
  · rw [Nat.add_zero]

variable {totalIp : Nat}

/-- The first loop takes one off for every address that is not in the file. -/
theorem availIp_eq {n : Nat} (h : n ≤ totalIp) :
    availIp macInfo minIp totalIp n = totalIp - (n - (mappedBelow macInfo minIp n).card) := by
  induction n with
  | zero => rfl
  | succ n ih =>
    have hle := card_mappedBelow_le macInfo minIp n
    rw [availIp, ih (by omega), card_mappedBelow_succ]
    cases hmac : macInfo (addressOf minIp n) with
    | none =>
      rw [Option.isNone_none, if_pos rfl, Option.isSome_none, if_neg Bool.false_ne_true]
      omega
    | some mac =>
      rw [Option.isNone_some, if_neg Bool.false_ne_true, Option.isSome_some, if_pos rfl]
      omega

/-- The vector has a place for every mapped address. -/
theorem vectorSize_eq (h : ∃ idx < totalIp, Mapped macInfo minIp idx) :
    vectorSize macInfo minIp true totalIp = (mappedBelow macInfo minIp totalIp).card := by
  have hle := card_mappedBelow_le macInfo minIp totalIp
  have hpos : 0 < (mappedBelow macInfo minIp totalIp).card := by
    obtain ⟨idx, hlt, hmapped⟩ := h
    exact Finset.card_pos.mpr ⟨idx, mem_mappedBelow.mpr ⟨hlt, hmapped⟩⟩
  have havail : availIp macInfo minIp totalIp totalIp =
      (mappedBelow macInfo minIp totalIp).card := by
    rw [availIp_eq (Nat.le_refl totalIp)]
    omega
  rw [vectorSize, if_pos rfl, havail, if_pos (by omega)]

/-- **The mapped addresses are the first ones** exactly when each of them is within their number. -/
theorem first_iff :
    (∀ i j, i < j → j < totalIp → Mapped macInfo minIp j → Mapped macInfo minIp i) ↔
      ∀ idx < totalIp, Mapped macInfo minIp idx →
          idx < (mappedBelow macInfo minIp totalIp).card := by
  constructor
  · intro hfirst idx hlt hmapped
    have hsub : Finset.range (idx + 1) ⊆ mappedBelow macInfo minIp totalIp := by
      intro i hi
      rw [Finset.mem_range] at hi
      rw [mem_mappedBelow]
      refine ⟨by omega, ?_⟩
      rcases Nat.lt_or_ge i idx with hlt' | hge
      · exact hfirst i idx hlt' hlt hmapped
      · obtain rfl : i = idx := by omega
        exact hmapped
    have hcard := Finset.card_le_card hsub
    rw [Finset.card_range] at hcard
    omega
  · intro hwithin i j hij hj hmapped
    have hsub : mappedBelow macInfo minIp totalIp ⊆
        Finset.range (mappedBelow macInfo minIp totalIp).card := by
      intro idx hidx
      obtain ⟨hlt, hm⟩ := mem_mappedBelow.mp hidx
      exact Finset.mem_range.mpr (hwithin idx hlt hm)
    have heq := Finset.eq_of_subset_of_card_le hsub (by rw [Finset.card_range])
    have hi : i ∈ mappedBelow macInfo minIp totalIp := by
      rw [heq, Finset.mem_range]
      have := hwithin j hj hmapped
      omega
    exact (mem_mappedBelow.mp hi).2

/-- The addresses of a range that is not the whole address space differ. -/
theorem addressOf_inj {i j : Nat} (hi : i < 2 ^ 32) (hj : j < 2 ^ 32)
    (h : addressOf minIp i = addressOf minIp j) :
    i = j := by
  have h' := UInt32.add_right_inj minIp |>.mp h
  have hnat := congrArg UInt32.toNat h'
  rw [UInt32.toNat_ofNat', UInt32.toNat_ofNat', Nat.mod_eq_of_lt hi, Nat.mod_eq_of_lt hj] at hnat
  exact hnat

end Counting

/-! ## 2. The loop that makes the clients -/

section Placing

variable {macInfo : MacInfo} {minIp : UInt32} {size : Nat}

/-- What is to be at the place `idx`. -/
def entryOf (macInfo : MacInfo) (minIp : UInt32) (alloc : Alloc) (idx : Nat) : Option CIpInfoBase :=
  (macInfo (addressOf minIp idx)).map fun mac =>
    { ip := addressOf minIp idx, alloc, mac := some mac }

/-- **While the mapped addresses are in the vector**, the client of each is at its offset. -/
theorem placeClients_ok (alloc : Alloc) {n : Nat}
    (h : ∀ idx < n, Mapped macInfo minIp idx → idx < size) :
    ∃ v, placeClients macInfo minIp true alloc size n = .ok v ∧ v.length = size ∧
      ∀ i < size, v[i]? = some (if i < n then entryOf macInfo minIp alloc i else none) := by
  induction n with
  | zero =>
    refine ⟨_, rfl, List.length_replicate, ?_⟩
    intro i hi
    rw [List.getElem?_replicate, if_pos hi, if_neg (Nat.not_lt_zero i)]
  | succ n ih =>
    obtain ⟨v, hv, hlen, hget⟩ := ih fun idx hlt => h idx (by omega)
    rw [placeClients, hv]
    show ∃ w, placeClient macInfo minIp true alloc n v = .ok w ∧ _
    unfold placeClient
    cases hmac : macInfo (addressOf minIp n) with
    | none =>
      refine ⟨v, rfl, hlen, ?_⟩
      intro i hi
      rw [hget i hi]
      by_cases hin : i = n
      · subst hin
        rw [if_neg (Nat.lt_irrefl i), if_pos (Nat.lt_succ_self i), entryOf, hmac]
        rfl
      · simp only [show i < n + 1 ↔ i < n by omega]
    | some mac =>
      have hn : n < size := h n (Nat.lt_succ_self n) (by rw [Mapped, hmac]; rfl)
      refine ⟨v.set n (some ⟨⟨addressOf minIp n, alloc⟩, some mac⟩),
        ?_, by rw [List.length_set, hlen], ?_⟩
      · dsimp only
        rw [Option.isNone_some, Bool.and_false, if_neg Bool.false_ne_true, if_neg (by omega),
          if_pos rfl]
      · intro i hi
        by_cases hin : i = n
        · subst hin
          rw [List.getElem?_set_self (by omega), if_pos (Nat.lt_succ_self i), entryOf, hmac]
          rfl
        · rw [List.getElem?_set_ne (fun h => hin h.symm), hget i hi]
          simp only [show i < n + 1 ↔ i < n by omega]

/-- **A mapped address past the end** is written all the same. -/
theorem placeClients_bad {alloc : Alloc} {n : Nat}
    (h : ∃ idx < n, Mapped macInfo minIp idx ∧ size ≤ idx) :
    placeClients macInfo minIp true alloc size n = .error .badIndex := by
  induction n with
  | zero =>
    obtain ⟨idx, hlt, -⟩ := h
    omega
  | succ n ih =>
    rw [placeClients]
    by_cases hbefore : ∃ idx < n, Mapped macInfo minIp idx ∧ size ≤ idx
    · rw [ih hbefore]
      rfl
    · -- the first one past the end is the address of this turn
      have hok : ∀ idx < n, Mapped macInfo minIp idx → idx < size := by
        intro idx hlt hmapped
        by_contra hge
        exact hbefore ⟨idx, hlt, hmapped, by omega⟩
      obtain ⟨v, hv, hlen, -⟩ := placeClients_ok alloc hok
      obtain ⟨idx, hlt, hmapped, hsize⟩ := h
      have hidx : idx = n := by
        by_contra hne
        have := hok idx (by omega) hmapped
        omega
      subst hidx
      obtain ⟨mac, hmac⟩ := Option.isSome_iff_exists.mp hmapped
      rw [hv]
      show placeClient macInfo minIp true alloc idx v = .error .badIndex
      unfold placeClient
      rw [hmac]
      dsimp only
      rw [Option.isNone_some, Bool.and_false, if_neg Bool.false_ne_true, if_pos (by omega)]

end Placing

/-! ## 3. When the file fits -/

/-- **What a pool that was made from a MAC file is to be**: one client for every mapped address,
with this address and its MAC address, and no other; a client at every place, and for every index
that the pool gives out later. -/
structure CClientPool.FromFile (pool : CClientPool) (macInfo : MacInfo) (minIp : UInt32)
    (totalIp : Nat) : Prop where
  once : ∀ idx < totalIp, ∀ mac, macInfo (addressOf minIp idx) = some mac →
    ∃ (i : Nat) (info : CIpInfoBase), pool.ipInfo[i]? = some (some info) ∧
      info.ip = addressOf minIp idx ∧
      info.mac = some mac ∧ ∀ (j : Nat) (info' : CIpInfoBase), pool.ipInfo[j]? = some (some info') →
        info'.ip = addressOf minIp idx → j = i
  only : ∀ (i : Nat) (info : CIpInfoBase), pool.ipInfo[i]? = some (some info) →
    ∃ idx < totalIp, Mapped macInfo minIp idx ∧ info.ip = addressOf minIp idx
  populated : ∀ i < pool.ipInfo.length, ∃ info, pool.ipInfo[i]? = some (some info)
  later : ∀ p random, CClientPool.Later pool p →
    ∃ info, p.ipInfo[(p.generateIp random).1]? = some (some info)

/-- The number of addresses of a range. -/
def totalIps (minIp maxIp : UInt32) : Nat := maxIp.toNat - minIp.toNat + 1

section Create

variable {dist : IpDist} {minIp maxIp : UInt32} {lFlow tCps : Rat} {macInfo : MacInfo}
    {tcpAging udpAging : UInt16}

theorem totalIp_eq (hle : minIp ≤ maxIp) (hsmall : maxIp.toNat - minIp.toNat < 1000000) :
    (maxIp - minIp + 1).toNat = totalIps minIp maxIp := by
  have hle' : minIp.toNat ≤ maxIp.toNat := hle
  have hone : (1 : UInt32).toNat = 1 := rfl
  rw [UInt32.toNat_add, UInt32.toNat_sub_of_le _ _ hle, hone, Nat.mod_eq_of_lt (by omega)]
  rfl

/-- `Create`, with the numbers of addresses. -/
theorem create_eq (hle : minIp ≤ maxIp) (hsmall : maxIp.toNat - minIp.toNat < 1000000)
    (hmap : ∃ idx < totalIps minIp maxIp, Mapped macInfo minIp idx) :
    CClientPool.create dist minIp maxIp lFlow tCps macInfo true tcpAging udpAging =
      (placeClients macInfo minIp true (chooseAlloc (totalIps minIp maxIp) lFlow tCps)
        (mappedBelow macInfo minIp (totalIps minIp maxIp)).card (totalIps minIp maxIp)).bind
            fun ipInfo =>
          .ok { toCIpPool := CIpPool.createBase ipInfo dist, tcpAging, udpAging } := by
  rw [CClientPool.create, if_neg (UInt32.not_lt.mpr hle), ← vectorSize_eq hmap,
    totalIp_eq hle hsmall]
  rfl

/-- With the mapped addresses first, the pool is as it is to be. -/
theorem create_fromFile (hle : minIp ≤ maxIp) (hsmall : maxIp.toNat - minIp.toNat < 1000000)
    (hmap : ∃ idx < totalIps minIp maxIp, Mapped macInfo minIp idx)
    (hwithin : ∀ idx < totalIps minIp maxIp, Mapped macInfo minIp idx →
      idx < (mappedBelow macInfo minIp (totalIps minIp maxIp)).card) :
    ∃ pool, CClientPool.create dist minIp maxIp lFlow tCps macInfo true tcpAging udpAging =
      .ok pool ∧ pool.FromFile macInfo minIp (totalIps minIp maxIp) := by
  obtain ⟨v, hv, hlen, hget⟩ :=
    placeClients_ok (chooseAlloc (totalIps minIp maxIp) lFlow tCps) hwithin
  have hcard := card_mappedBelow_le macInfo minIp (totalIps minIp maxIp)
  have htotal : totalIps minIp maxIp ≤ 2 ^ 32 := by
    unfold totalIps
    omega
  have hentry : ∀ i < v.length, ∃ mac, macInfo (addressOf minIp i) = some mac ∧
      v[i]? = some (some ⟨⟨addressOf minIp i, chooseAlloc (totalIps minIp maxIp) lFlow tCps⟩,
          some mac⟩) := by
    intro i hi
    rw [hlen] at hi
    have hmem : i ∈ mappedBelow macInfo minIp (totalIps minIp maxIp) := by
      have hsub : mappedBelow macInfo minIp (totalIps minIp maxIp) ⊆
          Finset.range (mappedBelow macInfo minIp (totalIps minIp maxIp)).card := by
        intro idx hidx
        obtain ⟨hlt, hm⟩ := mem_mappedBelow.mp hidx
        exact Finset.mem_range.mpr (hwithin idx hlt hm)
      rw [Finset.eq_of_subset_of_card_le hsub (by rw [Finset.card_range]), Finset.mem_range]
      exact hi
    obtain ⟨mac, hmac⟩ := Option.isSome_iff_exists.mp (mem_mappedBelow.mp hmem).2
    refine ⟨mac, hmac, ?_⟩
    rw [hget i hi, if_pos (by omega), entryOf, hmac]
    rfl
  obtain ⟨pool, hpool, hinfo, hcur⟩ : ∃ pool : CClientPool,
      CClientPool.create dist minIp maxIp lFlow tCps macInfo true tcpAging udpAging = .ok pool ∧
        pool.ipInfo = v ∧ pool.curIdx = 0 := by
    refine ⟨{ toCIpPool := CIpPool.createBase v dist, tcpAging, udpAging }, ?_, rfl, rfl⟩
    rw [create_eq hle hsmall hmap, hv]
    rfl
  have hpopulated : pool.Populated := by
    refine ⟨?_, ?_⟩
    · intro i hi
      rw [hinfo] at hi ⊢
      obtain ⟨mac, -, hi'⟩ := hentry i hi
      exact ⟨_, hi'⟩
    · obtain ⟨idx, hlt, hmapped⟩ := hmap
      have := hwithin idx hlt hmapped
      rw [hcur, hinfo, hlen]
      omega
  refine ⟨pool, hpool, ?_, ?_, hpopulated.filled, ?_⟩
  · intro idx hlt mac hmac
    have hidx : idx < v.length := by
      rw [hlen]
      exact hwithin idx hlt (by rw [Mapped, hmac]; rfl)
    obtain ⟨mac', hmac', hi⟩ := hentry idx hidx
    rw [hmac] at hmac'
    cases hmac'
    refine ⟨idx, _, by rw [hinfo]; exact hi, rfl, rfl, ?_⟩
    intro j info' hj hip
    rw [hinfo] at hj
    have hjlt : j < v.length := (List.getElem?_eq_some_iff.mp hj).1
    obtain ⟨mac', -, hj'⟩ := hentry j hjlt
    rw [hj'] at hj
    cases hj
    exact addressOf_inj (by omega) (by omega) hip
  · intro i info hi
    rw [hinfo] at hi
    have hlt : i < v.length := (List.getElem?_eq_some_iff.mp hi).1
    obtain ⟨mac, hmac, hi'⟩ := hentry i hlt
    rw [hi'] at hi
    cases hi
    exact ⟨i, by omega, by rw [Mapped, hmac]; rfl, rfl⟩
  · intro p random hlater
    have hp := hlater.populated hpopulated
    exact hp.filled _ hp.curIdx_lt

/-- **A MAC file gives the pool its clients** if and only if the addresses of the range that it has
are the first ones: then every mapped address has one client, with its MAC address, at every place
of the vector is a client, and every index that the pool gives out later is one of a client;
otherwise a client is written past the end of the vector. -/
theorem create_iff (hle : minIp ≤ maxIp) (hsmall : maxIp.toNat - minIp.toNat < 1000000)
    (hmap : ∃ idx < totalIps minIp maxIp, Mapped macInfo minIp idx) :
    (∃ pool, CClientPool.create dist minIp maxIp lFlow tCps macInfo true tcpAging udpAging =
      .ok pool ∧ pool.FromFile macInfo minIp (totalIps minIp maxIp)) ↔
    ∀ i j, i < j → j < totalIps minIp maxIp → Mapped macInfo minIp j → Mapped macInfo minIp i := by
  rw [first_iff]
  constructor
  · rintro ⟨pool, hpool, -⟩ idx hlt hmapped
    by_contra hge
    rw [create_eq hle hsmall hmap, placeClients_bad ⟨idx, hlt, hmapped, by omega⟩] at hpool
    cases hpool
  · exact create_fromFile hle hsmall hmap

end Create

/-- The file of the test: the first two addresses of the range. -/
def testFile : MacInfo := fun ip =>
  if ip = 0x10000001 then some ⟨[0, 0, 0, 5, 0, 1]⟩ else if ip = 0x10000002
    then some ⟨[0, 0, 0, 1, 0, 0]⟩ else none

/-- The pool of the test. -/
theorem create_iff_test :
    (∃ pool, CClientPool.create .cdSEQ_DIST 0x10000001 0x1000000f 64000 2 testFile true 0 0 =
      .ok pool ∧ pool.FromFile testFile 0x10000001 (totalIps 0x10000001 0x1000000f)) ↔
    ∀ i j, i < j → j < totalIps 0x10000001 0x1000000f → Mapped testFile 0x10000001 j →
        Mapped testFile 0x10000001 i :=
  create_iff (by decide) (by decide) ⟨0, by decide, rfl⟩

/-- A file with one address in the middle of the range. -/
def gapFile : MacInfo := fun ip => if ip = 0x10000005 then some ⟨[0, 0, 0, 5, 0, 1]⟩ else none

/-- **A gap in the file**: the vector has one place, and the client is put at the fifth. -/
theorem create_gap :
    (∃ idx < totalIps 0x10000001 0x1000000f, Mapped gapFile 0x10000001 idx) ∧
    CClientPool.create .cdSEQ_DIST 0x10000001 0x1000000f 64000 2 gapFile true 0 0 =
        .error .badIndex := by
  have hmapped : Mapped gapFile 0x10000001 4 := rfl
  have hmap : ∃ idx < totalIps 0x10000001 0x1000000f, Mapped gapFile 0x10000001 idx :=
    ⟨4, by decide, hmapped⟩
  refine ⟨hmap, ?_⟩
  have hcard : (mappedBelow gapFile 0x10000001 (totalIps 0x10000001 0x1000000f)).card =
    1 := by decide
  rw [create_eq (by decide) (by decide) hmap, hcard,
    placeClients_bad ⟨4, by decide, hmapped, by decide⟩]
  rfl

end Trex.Tuple.Full
