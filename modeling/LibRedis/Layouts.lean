import LibRedis.KeyRouting
import Mathlib.Data.Nat.Basic

/-!
# Layouts that the constructor accepts

A layout is a number of hosts and a number of partitions, which should divide it. The constructor
divides the hosts by the partitions, and asks that the quotient divides the hosts. Where it accepts
a number of partitions that does not, keys go over another number of hosts.
-/

namespace LibRedis

open Decimal (ascii)

namespace Redis2P

variable {κ : Type}

/-- How many hosts a list has. -/
def hostCount (hostList : Bytes) : Nat := (hostList.splitOn 44).length

/-- There is a port for each host, or one port. -/
def PortsMatch (hostList portList : Bytes) : Prop :=
  hostCount portList = hostCount hostList ∨ hostCount portList = 1

/-- A number of partitions as a `size_t`. -/
def partitionCount (partitions : Int32) : Nat := (partitions.toInt % 2 ^ 64).toNat

/-- The layout is rectangular: the hosts are a positive multiple of the partitions. -/
structure Rectangular (hostList portList : Bytes) (partitions : Int32) : Prop where
  /-- The ports match. -/
  ports : PortsMatch hostList portList
  /-- There is a partition. -/
  positive : 0 < partitions.toInt
  /-- There is a host. -/
  hosts : 0 < hostCount hostList
  /-- Every group has as many hosts as there are partitions. -/
  divides : partitions.toInt ∣ hostCount hostList

/-- Keys go over this many hosts, by their hash. -/
structure RoutesOver (r : Redis2P κ) (partitions : Int32) : Prop where
  /-- So many hosts are in a group. -/
  hostNum : (r.hostNum : Int) = partitions.toInt
  /-- A key goes to the host of its hash. -/
  host : ∀ key, (r.getKeyHostIndex key : Int) = (r.hashFn key).toNat % partitions.toInt

/-- What the constructor asks of a layout. -/
structure Admitted (hostList portList : Bytes) (partitions : Int32) : Prop where
  /-- The ports match. -/
  ports : PortsMatch hostList portList
  /-- The number of partitions is not zero. -/
  some : partitionCount partitions ≠ 0
  /-- The number of groups is not zero. -/
  groups : hostCount hostList / partitionCount partitions ≠ 0
  /-- The number of groups divides the hosts. -/
  divides : hostCount hostList % (hostCount hostList / partitionCount partitions) = 0

/-- The hosts and the ports are accepted if the ports match. -/
theorem parseHosts_ok_iff {hostList portList : Bytes} :
    (∃ parsed, parseHosts hostList portList = .ok parsed) ↔ PortsMatch hostList portList := by
  simp only [parseHosts, PortsMatch, hostCount]
  constructor
  · rintro ⟨parsed, parses⟩
    by_contra fails
    obtain ⟨mismatch, several⟩ := not_or.mp fails
    rw [if_pos ⟨fun same => mismatch same.symm, several⟩] at parses
    cases parses
  · intro matched
    rw [if_neg (by omega)]
    split
    · exact ⟨_, rfl⟩
    · exact ⟨_, rfl⟩

/-- The hosts are those of the list. -/
theorem parseHosts_hosts {hostList portList : Bytes} {hosts ports : List Bytes}
    (parses : parseHosts hostList portList = .ok (hosts, ports)) :
    hosts.length = hostCount hostList := by
  simp only [parseHosts] at parses
  split at parses
  · cases parses
  · split at parses
    · cases parses
      rfl
    · cases parses
      rfl

/-- When `inner_init` accepts. -/
theorem countGroups_ok_iff {hosts partitions : Nat} :
    (∃ groups, countGroups hosts partitions = .ok groups) ↔
      partitions ≠ 0 ∧ hosts / partitions ≠ 0 ∧ hosts % (hosts / partitions) = 0 := by
  constructor
  · rintro ⟨groups, counts⟩
    obtain ⟨rfl, positive, divides⟩ := countGroups_ok counts
    refine ⟨?_, positive.ne', divides⟩
    rintro rfl
    rw [Nat.div_zero] at positive
    exact positive.false
  · rintro ⟨some, groups, divides⟩
    simp only [countGroups]
    rw [if_neg some, if_neg groups, if_neg (not_not.mpr divides)]
    exact ⟨_, rfl⟩

/-- The constructor accepts what it asks for. -/
theorem new_ok_iff {hostList portList : Bytes} {dbIndex : Int32} {timeoutMs : Int}
    {partitions : Int32} {hashFn : Bytes → UInt32}
    {newRedis2 : Nat → Bytes → Bytes → Int32 → Int → κ} :
    (∃ r, new hostList portList dbIndex timeoutMs partitions hashFn newRedis2 = .ok r) ↔
      Admitted hostList portList partitions := by
  constructor
  · rintro ⟨r, accepted⟩
    obtain ⟨⟨hosts, ports⟩, parses, accepted⟩ := bind_returns accepted
    obtain ⟨groups, counts, -⟩ := bind_returns accepted
    rw [parseHosts_hosts parses] at counts
    obtain ⟨some, positive, divides⟩ := countGroups_ok_iff.mp ⟨groups, counts⟩
    exact ⟨parseHosts_ok_iff.mp ⟨_, parses⟩, some, positive, divides⟩
  · intro admitted
    obtain ⟨⟨hosts, ports⟩, parses⟩ := parseHosts_ok_iff.mpr admitted.ports
    obtain ⟨groups, counts⟩ :=
      countGroups_ok_iff.mpr ⟨admitted.some, admitted.groups, admitted.divides⟩
    rw [← parseHosts_hosts parses] at counts
    cases made : new hostList portList dbIndex timeoutMs partitions hashFn newRedis2 with
    | ok r => exact ⟨r, rfl⟩
    | error text =>
      rw [new, parses] at made
      change (countGroups hosts.length (partitionCount partitions) >>= _) = _ at made
      rw [counts] at made
      cases made

/-- The constructor accepts exactly the rectangular layouts, and then keys go over as many hosts as
there are partitions. -/
def LayoutAgrees (hostList portList : Bytes) (dbIndex : Int32) (timeoutMs : Int)
    (partitions : Int32) (hashFn : Bytes → UInt32)
    (newRedis2 : Nat → Bytes → Bytes → Int32 → Int → κ) : Prop :=
  ((∃ r, new hostList portList dbIndex timeoutMs partitions hashFn newRedis2 = .ok r) ↔
    Rectangular hostList portList partitions) ∧
  ∀ r, new hostList portList dbIndex timeoutMs partitions hashFn newRedis2 = .ok r →
    r.RoutesOver partitions

/-- A list has a host. -/
theorem hostCount_pos (hostList : Bytes) : 0 < hostCount hostList :=
  List.length_pos_iff.mpr (List.splitOn_ne_nil 44 hostList)

/-- A positive number of partitions is itself as a `size_t`. -/
theorem partitionCount_pos {partitions : Int32} (positive : 0 < partitions.toInt) :
    (partitionCount partitions : Int) = partitions.toInt := by
  have word := partitions.toInt_lt
  rw [partitionCount, Int.emod_eq_of_lt positive.le (by omega)]
  exact Int.toNat_of_nonneg positive.le

/-- A rectangular layout is admitted, and its quotient is the number of groups. -/
theorem Rectangular.admitted {hostList portList : Bytes} {partitions : Int32}
    (rectangular : Rectangular hostList portList partitions) :
    Admitted hostList portList partitions ∧
      hostCount hostList / (hostCount hostList / partitionCount partitions) =
        partitionCount partitions := by
  have count := partitionCount_pos rectangular.positive
  have positive := rectangular.positive
  have some : 0 < partitionCount partitions := by omega
  have divides : partitionCount partitions ∣ hostCount hostList := by
    have divides := rectangular.divides
    rw [← count] at divides
    exact Int.natCast_dvd_natCast.mp divides
  obtain ⟨groups, shape⟩ := divides
  have hosts := rectangular.hosts
  have several : 0 < groups := by
    apply Nat.pos_of_ne_zero
    rintro rfl
    omega
  have quotient : hostCount hostList / partitionCount partitions = groups := by
    rw [shape, Nat.mul_div_cancel_left _ some]
  refine ⟨⟨rectangular.ports, some.ne', ?_, ?_⟩, ?_⟩
  · rw [quotient]
    exact several.ne'
  · rw [quotient, shape]
    exact Nat.mul_mod_left _ _
  · rw [quotient, shape, Nat.mul_div_cancel _ several]

/-- The constructor counts the hosts and the groups. -/
theorem new_hostNum {hostList portList : Bytes} {dbIndex : Int32} {timeoutMs : Int}
    {partitions : Int32} {hashFn : Bytes → UInt32}
    {newRedis2 : Nat → Bytes → Bytes → Int32 → Int → κ} {r : Redis2P κ}
    (accepted : new hostList portList dbIndex timeoutMs partitions hashFn newRedis2 = .ok r) :
    r.hostNum = hostCount hostList / (hostCount hostList / partitionCount partitions) := by
  obtain ⟨⟨hosts, ports⟩, parses, accepted⟩ := bind_returns accepted
  obtain ⟨groups, counts, accepted⟩ := bind_returns accepted
  obtain ⟨quotient, -⟩ := countGroups_ok counts
  obtain ⟨matched, -⟩ := length_parseHosts parses
  have hosts_eq := parseHosts_hosts parses
  cases accepted
  rw [hostNum]
  simp only [List.length_mapIdx, List.length_zip]
  rw [← matched, Nat.min_self, quotient, hosts_eq]
  rfl

/-- The layout is right exactly where the constructor refuses it, or it is rectangular: it is
accepted wrongly if the quotient of hosts and partitions divides the hosts, and the partitions do
not. -/
theorem layoutAgrees_iff (hostList portList : Bytes) (dbIndex : Int32) (timeoutMs : Int)
    (partitions : Int32) (hashFn : Bytes → UInt32)
    (newRedis2 : Nat → Bytes → Bytes → Int32 → Int → κ) :
    LayoutAgrees hostList portList dbIndex timeoutMs partitions hashFn newRedis2 ↔
      ¬ PortsMatch hostList portList ∨ partitionCount partitions = 0 ∨
      hostCount hostList < partitionCount partitions ∨
      ¬ hostCount hostList / partitionCount partitions ∣ hostCount hostList ∨
      0 < partitions.toInt ∧ partitions.toInt ∣ hostCount hostList := by
  rw [LayoutAgrees, new_ok_iff]
  have hosts := hostCount_pos hostList
  constructor
  · rintro ⟨accepts, -⟩
    by_contra fails
    simp only [not_or, not_not] at fails
    obtain ⟨ports, some, enough, divides, wrong⟩ := fails
    have groups : hostCount hostList / partitionCount partitions ≠ 0 :=
      (Nat.div_pos (not_lt.mp enough) (Nat.pos_of_ne_zero some)).ne'
    have rectangular := accepts.mp ⟨ports, some, groups, Nat.mod_eq_zero_of_dvd divides⟩
    exact wrong ⟨rectangular.positive, rectangular.divides⟩
  · intro right
    have refused (fails : ¬ Admitted hostList portList partitions) :
        (Admitted hostList portList partitions ↔ Rectangular hostList portList partitions) ∧
        ∀ r, new hostList portList dbIndex timeoutMs partitions hashFn newRedis2 = .ok r →
          r.RoutesOver partitions := by
      refine ⟨iff_of_false fails fun rectangular => fails rectangular.admitted.1, ?_⟩
      intro r accepted
      exact absurd (new_ok_iff.mp ⟨r, accepted⟩) fails
    rcases right with ports | none | few | apart | ⟨positive, divides⟩
    · exact refused fun admitted => ports admitted.ports
    · exact refused fun admitted => admitted.some none
    · exact refused fun admitted => admitted.groups (Nat.div_eq_of_lt few)
    · exact refused fun admitted => apart (Nat.dvd_of_mod_eq_zero admitted.divides)
    · have rectangular (ports : PortsMatch hostList portList) :
          Rectangular hostList portList partitions := ⟨ports, positive, hosts, divides⟩
      refine ⟨⟨fun admitted => rectangular admitted.ports, fun whole => whole.admitted.1⟩, ?_⟩
      intro r accepted
      have ports := (new_ok_iff.mp ⟨r, accepted⟩).ports
      have hostNum : (r.hostNum : Int) = partitions.toInt := by
        rw [new_hostNum accepted, (rectangular ports).admitted.2, partitionCount_pos positive]
      refine ⟨hostNum, fun key => ?_⟩
      rw [getKeyHostIndex, ← hostNum]
      exact Int.natCast_emod _ _

/-- Three hosts and two partitions: the layout is accepted, and keys go over three hosts. -/
theorem layout_not_agrees : ∃ r : Redis2P Unit,
    new (ascii "a,b,c") (ascii "6379") 0 50 2 (fun _ => 2) (fun _ _ _ _ _ => ()) = .ok r ∧
      ¬ Rectangular (ascii "a,b,c") (ascii "6379") 2 ∧ r.hostNum = 3 ∧
      r.getKeyHostIndex (ascii "key") = 2 ∧
      ¬ LayoutAgrees (ascii "a,b,c") (ascii "6379") 0 50 2 (fun _ => 2)
        (fun _ _ _ _ _ => ()) := by
  have apart : ¬ Rectangular (ascii "a,b,c") (ascii "6379") 2 := by
    intro rectangular
    have divides := rectangular.divides
    revert divides
    decide
  refine ⟨_, rfl, apart, rfl, rfl, ?_⟩
  intro agrees
  exact apart (agrees.1.mp ⟨_, rfl⟩)

end Redis2P

end LibRedis
