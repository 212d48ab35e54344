import Anyio.ConnectTcp.Model
import Anyio.Library.Slices

/-!
# Happy eyeballs: the order of the target addresses

`connect_tcp()` connects to an IP address directly and looks up a host name.
It goes through the results once and puts the first IPv6 address at the front
and an IPv4 address behind it.
-/

namespace Anyio.ConnectTcp

open Library

/-- The address family of a result of `getaddrinfo()`. -/
inductive Family
  | inet
  | inet6
  | other (value : Nat)
  deriving DecidableEq, Repr

/-- What is read of a result of `getaddrinfo()`: its family, and the host of its address. -/
structure AddrInfo (η : Type*) where
  af : Family
  host : η
  deriving DecidableEq, Repr

/-- What `ip_address()` makes of the text of an address, by its `compressed` form. -/
inductive IpAddress (η : Type*)
  | v4 (compressed : η)
  | v6 (compressed : η)
  deriving DecidableEq, Repr

variable {ε η : Type*}

def AddrInfo.target (info : AddrInfo η) : Family × η := (info.af, info.host)

/-- The local variables of the loop over the results. -/
structure Scan (η : Type*) where
  v6Found : Bool
  v4Found : Bool
  targetAddrs : List (Family × η)

def Scan.start : Scan η := ⟨false, false, []⟩

/-- The body of the loop. -/
def scan (s : Scan η) (info : AddrInfo η) : Scan η :=
  if info.af = .inet6 ∧ s.v6Found = false then
    { s with v6Found := true, targetAddrs := insertAt s.targetAddrs 0 info.target }
  -- an IPv4 address that comes before any IPv6 address is only appended
  else if info.af = .inet ∧ s.v4Found = false ∧ s.v6Found = true then
    { s with v4Found := true, targetAddrs := insertAt s.targetAddrs 1 info.target }
  else { s with targetAddrs := s.targetAddrs ++ [info.target] }

/-- The loop over the results of `getaddrinfo()`. -/
def organize (gaiRes : List (AddrInfo η)) : List (Family × η) :=
  (gaiRes.foldl scan .start).targetAddrs

/-- The addresses to connect to; the results of `getaddrinfo()` are used if `ip_address()` does
not know the host. -/
def targetAddrs (addrObj : Option (IpAddress η)) (gaiRes : Except Error (List (AddrInfo η))) :
    Except Error (List (Family × η)) :=
  match addrObj with
  | some (.v6 compressed) => .ok [(.inet6, compressed)]
  | some (.v4 compressed) => .ok [(.inet, compressed)]
  | none => gaiRes.map organize

/-- The call up to its first await after the lookup. -/
def connectTcp (ε : Type*) (addrObj : Option (IpAddress η))
    (gaiRes : Except Error (List (AddrInfo η))) (expired : Bool) :
    Except Error (State (Family × η) ε) :=
  (targetAddrs addrObj gaiRes).map fun targets => initial ε targets expired

/-- The loop gives this result a place of its own: the first IPv6 address, and the first IPv4
address after it. -/
def Scan.places (s : Scan η) (info : AddrInfo η) : Prop :=
  info.af = .inet6 ∧ s.v6Found = false ∨
    info.af = .inet ∧ s.v4Found = false ∧ s.v6Found = true

variable {s : Scan η} {info v6 v4 : AddrInfo η} {before between after l : List (AddrInfo η)}

theorem scan_of_not_places (h : ¬ s.places info) :
    scan s info = { s with targetAddrs := s.targetAddrs ++ [info.target] } := by
  obtain ⟨hv6, hv4⟩ := not_or.mp h
  rw [scan, if_neg hv6, if_neg hv4]

/-- One step adds its result. -/
theorem scan_perm (s : Scan η) (info : AddrInfo η) :
    (scan s info).targetAddrs.Perm (s.targetAddrs ++ [info.target]) := by
  have hinsert : ∀ i, (insertAt s.targetAddrs i info.target).Perm
      (s.targetAddrs ++ [info.target]) := by
    intro i
    exact (insertAt_perm _ i _).trans (List.perm_append_singleton _ _).symm
  unfold scan
  split_ifs
  · exact hinsert 0
  · exact hinsert 1
  · exact .refl _

theorem foldl_scan_perm (s : Scan η) (l : List (AddrInfo η)) :
    (l.foldl scan s).targetAddrs.Perm (s.targetAddrs ++ l.map AddrInfo.target) := by
  induction l generalizing s with
  | nil => simp
  | cons info l ih =>
      have hstep := (scan_perm s info).append_right (l.map AddrInfo.target)
      rw [List.append_assoc, List.singleton_append] at hstep
      exact (ih (scan s info)).trans hstep

/-- Results without a place of their own are appended as they come. -/
theorem foldl_scan_of_not_places (h : ∀ info ∈ l, ¬ s.places info) :
    l.foldl scan s = { s with targetAddrs := s.targetAddrs ++ l.map AddrInfo.target } := by
  induction l generalizing s with
  | nil => simp
  | cons info l ih =>
      obtain ⟨hinfo, hl⟩ := List.forall_mem_cons.mp h
      have hrest : ∀ later ∈ l,
          ¬ Scan.places { s with targetAddrs := s.targetAddrs ++ [info.target] } later := hl
      rw [List.foldl_cons, scan_of_not_places hinfo, ih hrest]
      simp

/-- No result is lost or doubled. -/
theorem organize_perm (gaiRes : List (AddrInfo η)) :
    (organize gaiRes).Perm (gaiRes.map AddrInfo.target) :=
  foldl_scan_perm .start gaiRes

theorem start_not_places (h : ∀ info ∈ l, info.af ≠ .inet6) :
    ∀ info ∈ l, ¬ Scan.start.places info := by
  intro info hinfo
  simp [Scan.places, Scan.start, h info hinfo]

/-- The loop up to the first IPv6 address. -/
theorem foldl_scan_inet6 (hbefore : ∀ info ∈ before, info.af ≠ .inet6) (hv6 : v6.af = .inet6) :
    (before ++ [v6]).foldl scan .start =
      ⟨true, false, v6.target :: before.map AddrInfo.target⟩ := by
  rw [List.foldl_append, foldl_scan_of_not_places (start_not_places hbefore)]
  simp [scan, Scan.start, hv6]

/-- Without an IPv4 address after it, only the first IPv6 address is moved. -/
theorem organize_of_no_inet_after (hbefore : ∀ info ∈ before, info.af ≠ .inet6)
    (hv6 : v6.af = .inet6) (hafter : ∀ info ∈ after, info.af ≠ .inet) :
    organize (before ++ v6 :: after) = v6.target :: (before ++ after).map AddrInfo.target := by
  have hplaces : ∀ info ∈ after,
      ¬ Scan.places ⟨true, false, v6.target :: before.map AddrInfo.target⟩ info := by
    intro info hinfo
    simp [Scan.places, hafter info hinfo]
  rw [organize, List.append_cons, List.foldl_append, foldl_scan_inet6 hbefore hv6,
    foldl_scan_of_not_places hplaces, List.map_append]
  rfl

/-- Else the first IPv4 address after it follows it, and the others keep their order. -/
theorem organize_of_inet_after (hbefore : ∀ info ∈ before, info.af ≠ .inet6)
    (hv6 : v6.af = .inet6) (hbetween : ∀ info ∈ between, info.af ≠ .inet)
    (hv4 : v4.af = .inet) :
    organize (before ++ v6 :: (between ++ v4 :: after)) =
      v6.target :: v4.target :: (before ++ between ++ after).map AddrInfo.target := by
  have hpassed : ∀ info ∈ between,
      ¬ Scan.places ⟨true, false, v6.target :: before.map AddrInfo.target⟩ info := by
    intro info hinfo
    simp [Scan.places, hbetween info hinfo]
  have hplaced : scan ⟨true, false, v6.target :: (before ++ between).map AddrInfo.target⟩ v4 =
      ⟨true, true, v6.target :: v4.target :: (before ++ between).map AddrInfo.target⟩ := by
    simp [scan, hv4]
  have hdone : ∀ info ∈ after, ¬ Scan.places
      ⟨true, true, v6.target :: v4.target :: (before ++ between).map AddrInfo.target⟩ info := by
    intro info _
    simp [Scan.places]
  have hmap : (before ++ between ++ after).map AddrInfo.target =
      (before ++ between).map AddrInfo.target ++ after.map AddrInfo.target := List.map_append
  rw [organize, List.append_cons, List.foldl_append, foldl_scan_inet6 hbefore hv6,
    List.foldl_append, foldl_scan_of_not_places hpassed, List.foldl_cons, List.cons_append,
    ← List.map_append, hplaced, foldl_scan_of_not_places hdone, hmap]
  rfl

/-- The results before and after the first one of a family. -/
theorem split_at_first {family : Family} (h : l.find? (·.af = family) = some info) :
    ∃ before after, l = before ++ info :: after ∧ info.af = family ∧
      ∀ other ∈ before, other.af ≠ family := by
  obtain ⟨hinfo, before, after, hl, hbefore⟩ := List.find?_eq_some_iff_append.mp h
  exact ⟨before, after, hl, by simpa using hinfo, by simpa using hbefore⟩

/-- The order by where the first IPv6 address and the first IPv4 address after it stand. -/
theorem organize_of_find? (hfirst : l.find? (·.af = .inet6) = some v6) :
    ∃ before after, l = before ++ v6 :: after ∧ v6.af = .inet6 ∧
      (∀ info ∈ before, info.af ≠ .inet6) ∧
      ((∀ info ∈ after, info.af ≠ .inet) ∧
          organize l = v6.target :: (before ++ after).map AddrInfo.target ∨
        ∃ (v4 : AddrInfo η) (rest : List (Family × η)),
          v4.af = .inet ∧ organize l = v6.target :: v4.target :: rest) := by
  obtain ⟨before, after, rfl, hv6, hbefore⟩ := split_at_first hfirst
  refine ⟨before, after, rfl, hv6, hbefore, ?_⟩
  cases hinet : after.find? (·.af = .inet) with
  | none =>
      have hafter : ∀ info ∈ after, info.af ≠ .inet := by simpa using hinet
      exact .inl ⟨hafter, organize_of_no_inet_after hbefore hv6 hafter⟩
  | some v4 =>
      obtain ⟨between, rest, rfl, hv4, hbetween⟩ := split_at_first hinet
      exact .inr ⟨v4, _, hv4, organize_of_inet_after hbefore hv6 hbetween hv4⟩

/-- The first target is the first IPv6 address. -/
theorem organize_first (hfirst : l.find? (·.af = .inet6) = some v6) :
    (organize l)[0]? = some v6.target := by
  obtain ⟨before, after, -, -, -, ⟨-, h⟩ | ⟨v4, rest, -, h⟩⟩ := organize_of_find? hfirst
  all_goals
    rw [h]
    rfl

/-- With addresses of both families and of no other the second target is an IPv4 address. -/
theorem organize_second (hl : ∀ info ∈ l, info.af = .inet ∨ info.af = .inet6)
    (hv6 : ∃ info ∈ l, info.af = .inet6) (hv4 : ∃ info ∈ l, info.af = .inet) :
    ∃ host, (organize l)[1]? = some (.inet, host) := by
  obtain ⟨info, hinfo, hinet⟩ := hv4
  obtain ⟨first, hfirst⟩ : ∃ first, l.find? (·.af = .inet6) = some first := by
    apply Option.isSome_iff_exists.mp
    simpa [List.find?_isSome] using hv6
  obtain ⟨before, after, rfl, haf, hbefore, ⟨hafter, h⟩ | ⟨v4, rest, hv4, h⟩⟩ :=
    organize_of_find? hfirst
  · -- The IPv4 address that exists stands before the first IPv6 address.
    cases before with
    | nil =>
        rcases List.mem_cons.mp hinfo with rfl | hinfo
        · rw [hinet] at haf
          cases haf
        · exact absurd hinet (hafter info hinfo)
    | cons b before =>
        have hb : b.af = .inet :=
          (hl b List.mem_cons_self).resolve_right (hbefore b List.mem_cons_self)
        refine ⟨b.host, ?_⟩
        rw [h, ← hb]
        rfl
  · refine ⟨v4.host, ?_⟩
    rw [h, ← hv4]
    rfl

/-- The first child task is started for the first target. -/
theorem connectTcp_first {addrObj : Option (IpAddress η)}
    {gaiRes : Except Error (List (AddrInfo η))} {expired : Bool} {targets : List (Family × η)}
    (htargets : targetAddrs addrObj gaiRes = .ok targets) (hne : targets ≠ []) :
    ∃ s, connectTcp ε addrObj gaiRes expired = .ok s ∧ s.targetAddrs = targets ∧
      s.attempt 0 = .created ∧ s.host = .eventWait 0 .pending expired := by
  have hlength : 0 < targets.length := List.length_pos_iff.mpr hne
  refine ⟨initial ε targets expired, ?_, ?_⟩
  · rw [connectTcp, htargets]
    rfl
  · simp [initial, nextAddress, entered, push, hlength]

/-- Happy eyeballs: the targets are the results in another order, the first IPv6 address comes
first, and an IPv4 address second if there are addresses of both families. -/
theorem happy_eyeballs (gaiRes : List (AddrInfo η))
    (hgai : ∀ info ∈ gaiRes, info.af = .inet ∨ info.af = .inet6) :
    ∃ targets, targetAddrs none (.ok gaiRes) = .ok targets ∧
      targets.Perm (gaiRes.map AddrInfo.target) ∧
      (∀ first, gaiRes.find? (·.af = .inet6) = some first → targets[0]? = some first.target) ∧
      ((∃ info ∈ gaiRes, info.af = .inet6) → (∃ info ∈ gaiRes, info.af = .inet) →
        ∃ host, targets[1]? = some (.inet, host)) :=
  ⟨organize gaiRes, rfl, organize_perm gaiRes, fun _ hfirst => organize_first hfirst,
    organize_second hgai⟩

theorem happy_eyeballs_mixed :
    ∃ targets, targetAddrs none
        (.ok [⟨.inet, "192.0.2.1"⟩, ⟨.inet6, "2001:db8::1"⟩, ⟨.inet6, "2001:db8::2"⟩,
          ⟨.inet, "192.0.2.2"⟩]) = .ok targets ∧
      targets[0]? = some (.inet6, "2001:db8::1") ∧ ∃ host, targets[1]? = some (.inet, host) := by
  obtain ⟨targets, htargets, -, hfirst, hsecond⟩ := happy_eyeballs
    [⟨.inet, "192.0.2.1"⟩, ⟨.inet6, "2001:db8::1"⟩, ⟨.inet6, "2001:db8::2"⟩,
      ⟨.inet, "192.0.2.2"⟩] (by simp)
  exact ⟨targets, htargets, hfirst ⟨.inet6, "2001:db8::1"⟩ (by simp),
    hsecond ⟨⟨.inet6, "2001:db8::1"⟩, by simp⟩ ⟨⟨.inet, "192.0.2.1"⟩, by simp⟩⟩

end Anyio.ConnectTcp
