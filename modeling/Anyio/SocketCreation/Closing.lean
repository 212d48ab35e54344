import Anyio.SocketCreation.Model
import Mathlib.Tactic.Common

/-!
# Which sockets a failed call closes

`create_tcp_listener()` closes the sockets that have a listener. The socket of the
result in work has none yet, so it stays open when an operation on it fails, and it
is the only one. `connect_unix()` closes its socket when `connect()` fails; what is
raised where the socket would block passes by the clause that does this.
-/

namespace Anyio.SocketCreation

open Library

section Listeners
variable (p : Platform) (faults : Faults) (reusePort : Bool) (backlog : Int)

/-- Of the results from number `n` on, the first for which something fails, if there is one,
fails in `socket.socket()`. -/
def FailsInSocket : Nat → List AddrInfo → Prop
  | _, [] => True
  | n, info :: rest =>
      faults n (.socket info.family) = none →
        configure p faults reusePort backlog n info = .ok () ∧ FailsInSocket (n + 1) rest

variable {p faults reusePort backlog}

/-- Every socket is closed or has its listener. -/
def Covered (listeners : List Listener) (s : Sockets) : Prop :=
  ∀ n < s.created, n ∈ s.closed ∨ { rawSocket := n, closed := false } ∈ listeners

/-- What was closed and what has a listener was created. -/
structure Created (listeners : List Listener) (s : Sockets) : Prop where
  closed : ∀ n ∈ s.closed, n < s.created
  listeners : ∀ l ∈ listeners, l.rawSocket < s.created

variable {listeners : List Listener} {s : Sockets} {n : Nat}

theorem Covered.push (h : Covered listeners s) :
    Covered (listeners ++ [{ rawSocket := s.created, closed := false }]) s.create := by
  intro n hn
  rcases Nat.lt_succ_iff_lt_or_eq.mp hn with hn | rfl
  · exact (h n hn).imp_right fun hmem => List.mem_append_left _ hmem
  · right
    simp

theorem Created.create (h : Created listeners s) : Created listeners s.create where
  closed n hn := Nat.lt_succ_of_lt (h.closed n hn)
  listeners l hl := Nat.lt_succ_of_lt (h.listeners l hl)

theorem Created.push (h : Created listeners s) :
    Created (listeners ++ [{ rawSocket := s.created, closed := false }]) s.create where
  closed := h.create.closed
  listeners l hl := by
    rcases List.mem_append.mp hl with hl | hl
    · exact h.create.listeners l hl
    · rw [List.mem_singleton.mp hl]
      exact Nat.lt_succ_self _

/-- The loop leaves every socket covered, or it fails with one that is not. -/
theorem openListeners_cases {r : Option Error} {after : List Listener} {s' : Sockets}
    (infos : List AddrInfo) (hcovered : Covered listeners s) (hcreated : Created listeners s)
    (h : openListeners p faults reusePort backlog infos listeners s = (r, after, s')) :
    FailsInSocket p faults reusePort backlog s.created (infos.filter (served p)) ∧
        Covered after s' ∨
      ¬ FailsInSocket p faults reusePort backlog s.created (infos.filter (served p)) ∧
        ∃ e raw, r = some e ∧ raw < s'.created ∧ raw ∉ s'.closed ∧
          ∀ l ∈ after, l.rawSocket ≠ raw := by
  induction infos generalizing listeners s with
  | nil =>
      cases h
      exact .inl ⟨trivial, hcovered⟩
  | cons info rest ih =>
      unfold openListeners at h
      split_ifs at h with hserved
      · rw [List.filter_cons_of_pos hserved]
        cases hsocket : faults s.created (.socket info.family) with
        | some e =>
            simp only [hsocket] at h
            cases h
            exact .inl ⟨by simp [FailsInSocket, hsocket], hcovered⟩
        | none =>
            simp only [hsocket] at h
            cases hconf : configure p faults reusePort backlog s.created info with
            | error e =>
                simp only [hconf] at h
                cases h
                -- the new socket has neither been closed nor got a listener
                refine .inr ⟨by simp [FailsInSocket, hsocket, hconf], e, s.created, rfl,
                  Nat.lt_succ_self _, ?_, ?_⟩
                · exact fun hmem => (hcreated.closed _ hmem).false
                · exact fun l hl => (hcreated.listeners l hl).ne
            | ok u =>
                simp only [hconf] at h
                have hstep : FailsInSocket p faults reusePort backlog s.created
                    (info :: rest.filter (served p)) ↔
                    FailsInSocket p faults reusePort backlog s.create.created
                      (rest.filter (served p)) := by
                  simp [FailsInSocket, hsocket, hconf, Sockets.create]
                rw [hstep]
                exact ih hcovered.push hcreated.push h
      · rw [List.filter_cons_of_neg hserved]
        exact ih hcovered hcreated h

theorem foldl_aclose_created (listeners : List Listener) (s : Sockets) :
    (listeners.foldl Listener.aclose s).created = s.created := by
  induction listeners generalizing s with
  | nil => rfl
  | cons l rest ih =>
      rw [List.foldl_cons, ih, Listener.aclose]
      split_ifs <;> rfl

/-- Closing listeners closes their sockets and no others. -/
theorem mem_foldl_aclose (listeners : List Listener) (s : Sockets) :
    n ∈ (listeners.foldl Listener.aclose s).closed ↔
      n ∈ s.closed ∨ { rawSocket := n, closed := false } ∈ listeners := by
  induction listeners generalizing s with
  | nil => simp
  | cons l rest ih =>
      obtain ⟨raw, closed⟩ := l
      rw [List.foldl_cons, ih]
      cases closed <;> simp [Listener.aclose, Sockets.close, or_assoc, or_left_comm]

/-- A `create_tcp_listener()` that raises has closed its sockets if and only if the result for
which it failed had failed in `socket.socket()`. -/
theorem createTcpListener_closes (infos : List AddrInfo) :
    (∀ e s, createTcpListener p faults (.ok infos) reusePort backlog = (.error e, s) →
      ∀ n < s.created, n ∈ s.closed) ↔
    FailsInSocket p faults reusePort (min backlog 65536) 0
      ((sortedSet infos).filter (served p)) := by
  unfold createTcpListener
  obtain ⟨⟨r, after, s'⟩, hr⟩ :
      ∃ r, openListeners p faults reusePort (min backlog 65536) (sortedSet infos) [] .none = r :=
    ⟨_, rfl⟩
  have hcovered : Covered [] .none := fun n hn => absurd hn (Nat.not_lt_zero n)
  have hcreated : Created [] .none := ⟨by simp [Sockets.none], by simp⟩
  simp only [hr]
  rcases openListeners_cases _ hcovered hcreated hr with
    ⟨hfails, hcovered⟩ | ⟨hnot, e, raw, rfl, hraw, hopen, hafter⟩
  · refine iff_of_true ?_ hfails
    intro e s hr n hn
    cases r with
    | none => cases hr
    | some e' =>
        cases hr
        rw [foldl_aclose_created] at hn
        exact (mem_foldl_aclose _ _).mpr (hcovered n hn)
  · refine iff_of_false ?_ hnot
    intro hclosed
    have hmem := hclosed e _ rfl raw (by rwa [foldl_aclose_created])
    rcases (mem_foldl_aclose _ _).mp hmem with hmem | hmem
    · exact hopen hmem
    · exact hafter _ hmem rfl

end Listeners

/-- The sibling for UNIX sockets closes the socket of a listener that it cannot make. -/
theorem createUnixListener_closes {faults : Faults} {raw : Nat} {backlog : Int} {s s' : Sockets}
    {e : Error} (h : createUnixListener faults raw backlog s = (.error e, s')) :
    raw ∈ s'.closed := by
  unfold createUnixListener at h
  split at h <;> cases h
  · simp [Sockets.close]
  · simp [Sockets.close]

/-- The exception that ends the loop of `connect_unix()` is raised in a wait. -/
def EndsInWait (attempts : List Attempt) : Prop :=
  ∃ e, attempts.find? (· ≠ .blocks none) = some (.blocks (some e))

/-- The loop closes its socket exactly where `connect()` raises. -/
theorem connectLoop_closes (raw : Nat) (s : Sockets) (attempts : List Attempt)
    (hs : raw ∉ s.closed) :
    (∀ e s', connectLoop raw s attempts = (.raised e, s') → raw ∈ s'.closed) ↔
      ¬ EndsInWait attempts := by
  fun_induction connectLoop raw s attempts with
  | case1 => simp [EndsInWait]
  | case2 => simp [EndsInWait]
  | case3 rest ih => simpa [EndsInWait] using ih
  | case4 e rest => simp [EndsInWait, hs]
  | case5 e rest => simp [EndsInWait, Sockets.close]

theorem connectLoop_created (raw : Nat) (s : Sockets) (attempts : List Attempt) :
    (connectLoop raw s attempts).2.created = s.created := by
  fun_induction connectLoop raw s attempts with
  | case1 => rfl
  | case2 => rfl
  | case3 rest ih => exact ih
  | case4 => rfl
  | case5 => rfl

/-- The socket of a `connect_unix()` is created, and what ends the call is raised in
`setblocking()` or in a wait. -/
def FailsOutsideConnect (faults : Faults) (afUnix : Nat) (checkpoint : Option Error)
    (attempts : List Attempt) : Prop :=
  checkpoint = none ∧ faults 0 (.socket afUnix) = none ∧
    (faults 0 .setblocking = none → EndsInWait attempts)

theorem connectUnix_closes (faults : Faults) (afUnix : Nat) (checkpoint : Option Error)
    (attempts : List Attempt) :
    (∀ e s, connectUnix faults afUnix checkpoint attempts = (.raised e, s) →
      ∀ n < s.created, n ∈ s.closed) ↔
    ¬ FailsOutsideConnect faults afUnix checkpoint attempts := by
  unfold connectUnix FailsOutsideConnect
  cases checkpoint with
  | some e => simp [Sockets.none]
  | none =>
      cases hsocket : faults 0 (.socket afUnix) with
      | some e => simp [Sockets.none]
      | none =>
          cases hset : faults 0 .setblocking with
          | some e => simp [Sockets.none, Sockets.create]
          | none =>
              have hclose := connectLoop_closes 0 Sockets.none.create attempts
                (by simp [Sockets.none, Sockets.create])
              have hone := connectLoop_created 0 Sockets.none.create attempts
              rw [show (none = none ∧ none = none ∧ (none = none → EndsInWait attempts)) ↔
                EndsInWait attempts by simp, ← hclose]
              constructor
              · intro h e s hs
                rw [hs] at hone
                exact h e s hs 0 (by rw [hone]; decide)
              · intro h e s hs n hn
                change connectLoop 0 Sockets.none.create attempts = (.raised e, s) at hs
                rw [hs] at hone
                have hlt : n < 1 := lt_of_lt_of_eq hn hone
                rw [Nat.lt_one_iff.mp hlt]
                exact h e s hs

/-- A `create_tcp_listener()` that raises has closed every socket that it created if and only if
`getaddrinfo()` raised or the failing result failed in `socket.socket()`; a `connect_unix()` that
raises, after any number of rounds, has closed its socket unless the exception came from
`setblocking()` or from a wait. -/
theorem failed_creation_closes (p : Platform) (faults : Faults)
    (gaiRes : Except Error (List AddrInfo)) (reusePort : Bool) (backlog : Int) (afUnix : Nat)
    (checkpoint : Option Error) (attempts : List Attempt) :
    ((∀ e s, createTcpListener p faults gaiRes reusePort backlog = (.error e, s) →
        ∀ n < s.created, n ∈ s.closed) ↔
      ∀ infos, gaiRes = .ok infos →
        FailsInSocket p faults reusePort (min backlog 65536) 0
          ((sortedSet infos).filter (served p))) ∧
    ((∀ e s, connectUnix faults afUnix checkpoint attempts = (.raised e, s) →
        ∀ n < s.created, n ∈ s.closed) ↔
      ¬ FailsOutsideConnect faults afUnix checkpoint attempts) := by
  refine ⟨?_, connectUnix_closes faults afUnix checkpoint attempts⟩
  cases gaiRes with
  | error e =>
      constructor
      · intro _ infos h
        cases h
      · intro _ e' s h
        cases h
        exact fun n hn => absurd hn (Nat.not_lt_zero n)
  | ok infos => simpa using createTcpListener_closes infos

/-- A Linux platform, and an address that is taken. -/
def linux : Platform := { win32 := false, afInet6 := 10, sockStream := 1 }

def taken : AddrInfo :=
  { family := 2, kind := 1, proto := 6, canonname := "", host := ascii "127.0.0.1", port := 80 }

def addressInUse : Faults := fun _ operation =>
  match operation with
  | .bind _ => some (.osError "Address already in use")
  | _ => none

/-- The socket whose `bind()` fails stays open, and so does the socket of a `connect_unix()` that
is cancelled where it waits. -/
theorem failed_creation_leaks :
    ¬ (∀ e s, createTcpListener linux addressInUse (.ok [taken]) false 65536 = (.error e, s) →
        ∀ n < s.created, n ∈ s.closed) ∧
    ¬ ∀ e s, connectUnix (fun _ _ => none) 1 none [.blocks none, .blocks (some .cancelledError)] =
        (.raised e, s) → ∀ n < s.created, n ∈ s.closed := by
  constructor
  · intro hclosed
    have hmem := hclosed (.osError "Address already in use") ⟨1, []⟩ (by decide) 0 (by decide)
    cases hmem
  · intro hclosed
    have hmem := hclosed .cancelledError ⟨1, []⟩ (by decide) 0 (by decide)
    cases hmem

end Anyio.SocketCreation
