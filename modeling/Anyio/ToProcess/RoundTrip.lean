import Anyio.ToProcess.Framing

/-!
# Commands and answers match

Every command that is not interrupted gives back the status and the payload of
the worker's answer to it, in whatever chunks the pipe delivers them, and no
byte stays behind.
-/

namespace Anyio.ToProcess

open Library

/-- How many commands were sent, what the worker answered, and what `send_raw_command()` made
of it, in order. -/
structure History where
  sent : Nat
  answers : List (Bytes × Bytes)
  recovered : List (Bytes × Bytes)
  failures : List Failure
  deriving DecidableEq, Repr

def History.empty : History := ⟨0, [], [], []⟩

/-- The history after a reply of `send_raw_command()`. -/
def History.reply (h : History) : Reply → History
  | .none => h
  | .recovered status payload => { h with recovered := h.recovered ++ [(status, payload)] }
  | .failed cause => { h with failures := h.failures ++ [cause] }

def record (h : History) (_ : State) (a : Action) (r : Reply) : History :=
  match a with
  | .command => { h with sent := h.sent + 1 }.reply r
  | .writeHeader status payload =>
      { h with answers := h.answers ++ [(status.bytes, payload)] }.reply r
  | _ => h.reply r

abbrev recorded : Machine (State × History) Action Reply := machine.withHistory record

/-- The header of an answer, its newline included, has at most 50 bytes. -/
def Fits (_ : State × History) : Action → Prop
  | .writeHeader status payload => (header status.bytes payload.length).length ≤ 50
  | _ => True

instance (p : State × History) (a : Action) : Decidable (Fits p a) := by
  cases a <;> unfold Fits <;> infer_instance

theorem headerLine_length (status : Bytes) (n : Nat) :
    (header status n).length = (headerLine status n).length + 1 := by
  simp [header]

theorem status_no_space (status : Status) : space ∉ status.bytes := by
  cases status <;> decide

theorem newline_not_mem (status : Status) (n : Nat) : newline ∉ headerLine status.bytes n := by
  have hdigits : newline ∉ decimal n := fun h => (isDigit_of_mem_decimal h).ne rfl rfl
  have hstatus : newline ∉ status.bytes := by cases status <;> decide
  simp only [headerLine, List.mem_append, List.mem_cons, hstatus, hdigits, or_false, false_or]
  decide

/-- The header line splits into the status and the length. -/
theorem splitOn_headerLine (status : Status) (n : Nat) :
    (headerLine status.bytes n).splitOn space = [status.bytes, decimal n] := by
  have hdigits : space ∉ decimal n := fun h => (isDigit_of_mem_decimal h).ne rfl rfl
  rw [headerLine, List.splitOn, List.splitOnP_append_cons_of_forall_mem _ _ (by simp),
    List.splitOnP_eq_singleton]
  · intro b hb
    simpa using fun h : b = space => hdigits (h ▸ hb)
  · intro b hb
    simpa using fun h : b = space => status_no_space status (h ▸ hb)

/-- What the parent has read of the answer, what it can read, and what is still to be written. -/
def State.bytes (s : State) : Bytes :=
  s.buffered.buffer ++ s.pipe ++ s.unwritten.getD []

/-- The parent is going to read, or reads, the header. -/
inductive AtHeader (s : State) : Prop
  | sending (hp : s.point = .sending)
  | header (hp : s.point = .header) (offset : Nat)
      (hbuffered : s.buffered.point = .receivingUntil [newline] 50 offset)

/-- The stages of a command: none is going on, or the worker has not answered it, or the parent
has not read all of the header, or not all of the payload. -/
inductive Stage (s : State) (h : History) : Prop
  | idle (hp : s.point = .outside) (hcommands : s.commands = 0) (hbytes : s.bytes = [])
      (hrecovered : h.recovered = h.answers) (hsent : h.sent = h.answers.length)
  | unanswered (hp : AtHeader s) (hcommands : s.commands = 1) (hbytes : s.bytes = [])
      (hrecovered : h.recovered = h.answers) (hsent : h.sent = h.answers.length + 1)
  | header (status : Status) (payload : Bytes) (hp : AtHeader s) (hcommands : s.commands = 0)
      (hfits : (header status.bytes payload.length).length ≤ 50)
      (hbytes : s.bytes = header status.bytes payload.length ++ payload)
      (hshort : s.buffered.buffer.length ≤ (headerLine status.bytes payload.length).length)
      (hanswers : h.answers = h.recovered ++ [(status.bytes, payload)])
      (hsent : h.sent = h.answers.length)
  | payload (status : Status) (payload : Bytes) (hp : s.point = .payload status.bytes)
      (hbuffered : s.buffered.point = .receivingExactly payload.length)
      (hcommands : s.commands = 0) (hbytes : s.bytes = payload)
      (hshort : s.buffered.buffer.length < payload.length)
      (hanswers : h.answers = h.recovered ++ [(status.bytes, payload)])
      (hsent : h.sent = h.answers.length)

/-- The step neither fails nor kills the worker, and leads to a stage again. -/
structure Proceeds (h : History) (r : State × Reply) : Prop where
  alive : r.1.killed = false
  calm : ∀ cause, r.2 ≠ .failed cause
  stage : Stage r.1 (h.reply r.2)

section Rounds
variable {s : State} {h : History} {status : Status} {payload : Bytes}
  {b : BufferedByteReceiveStream.State}

/-- `receive_exactly()` returns as soon as nothing is left to come. -/
theorem receiveExactly_eq {later : Bytes} (hbytes : b.buffer ++ later = payload) :
    BufferedByteReceiveStream.receiveExactly b payload.length =
      if later = [] then ({ b with buffer := [], point := .outside }, .returned (some payload))
      else BufferedByteReceiveStream.suspend b (.receivingExactly payload.length) := by
  have hlength : payload.length = b.buffer.length + later.length := by
    rw [← hbytes, List.length_append]
  rw [BufferedByteReceiveStream.receiveExactly]
  by_cases hlater : later = []
  · have hbuffer : b.buffer = payload := by rw [← hbytes, hlater, List.append_nil]
    rw [if_pos hlater, if_pos (by simp [hbuffer]), BufferedByteReceiveStream.takeBuffer, hbuffer]
    simp
  · have hpos := List.length_pos_iff.mpr hlater
    rw [if_neg hlater, if_neg (by omega)]

/-- A round of `receive_exactly()` goes on waiting or gives the payload back. -/
theorem awaitPayload_proceeds (halive : s.killed = false) (hcommands : s.commands = 0)
    (hbytes : b.buffer ++ (s.pipe ++ s.unwritten.getD []) = payload)
    (hanswers : h.answers = h.recovered ++ [(status.bytes, payload)])
    (hsent : h.sent = h.answers.length) :
    Proceeds h (awaitPayload s status.bytes
      (BufferedByteReceiveStream.receiveExactly b payload.length)) := by
  rw [receiveExactly_eq hbytes]
  split_ifs with hlater
  · refine ⟨halive, fun cause => by simp [awaitPayload], .idle rfl hcommands ?_ hanswers.symm hsent⟩
    simpa [State.bytes, awaitPayload] using hlater
  · refine ⟨halive, fun cause => by simp [awaitPayload, BufferedByteReceiveStream.suspend], ?_⟩
    refine .payload status payload rfl rfl hcommands ?_ ?_ hanswers hsent
    · simpa [State.bytes, awaitPayload, BufferedByteReceiveStream.suspend] using hbytes
    · have hpos := List.length_pos_iff.mpr hlater
      change b.buffer.length < payload.length
      rw [← hbytes, List.length_append]
      omega

/-- The header line leads to the payload that it announces. -/
theorem afterHeader_eq (s : State) (status : Status) (n : Nat) :
    afterHeader s (headerLine status.bytes n) =
      awaitPayload s status.bytes (BufferedByteReceiveStream.receiveExactly s.buffered n) := by
  have hknown : status.bytes = Status.returned.bytes ∨ status.bytes = Status.exception.bytes := by
    cases status <;> simp
  rw [afterHeader, splitOn_headerLine]
  dsimp only
  rw [if_pos hknown, parseInt_decimal]

/-- A round of `receive_until()` goes on waiting for the newline or reaches the payload. -/
theorem awaitHeader_proceeds {offset : Nat} (halive : s.killed = false)
    (hcommands : s.commands = 0) (hfits : (header status.bytes payload.length).length ≤ 50)
    (hbytes : b.buffer ++ (s.pipe ++ s.unwritten.getD []) =
      header status.bytes payload.length ++ payload)
    (hoffset : offset ≤ (headerLine status.bytes payload.length).length)
    (hanswers : h.answers = h.recovered ++ [(status.bytes, payload)])
    (hsent : h.sent = h.answers.length) :
    Proceeds h (awaitHeader s
      (BufferedByteReceiveStream.receiveUntil b [newline] 50 offset)) := by
  have hline := newline_not_mem status payload.length
  rw [headerLine_length] at hfits
  have hsplit : b.buffer ++ (s.pipe ++ s.unwritten.getD []) =
      headerLine status.bytes payload.length ++ newline :: payload := by
    rw [hbytes, header, List.append_assoc, List.singleton_append]
  have hprefix : headerLine status.bytes payload.length <+:
      b.buffer ++ (s.pipe ++ s.unwritten.getD []) := hsplit ▸ List.prefix_append _ _
  rcases le_or_gt b.buffer.length (headerLine status.bytes payload.length).length with
    hshort | hlong
  · -- the newline has not arrived
    have hnone : newline ∉ b.buffer := fun hmem => hline
      ((List.prefix_of_prefix_length_le (List.prefix_append _ _) hprefix hshort).subset hmem)
    have hlimit : ¬ (50 : Int) ≤ b.buffer.length := by omega
    rw [BufferedByteReceiveStream.receiveUntil, find_singleton_of_not_mem hnone]
    dsimp only
    rw [if_neg hlimit]
    refine ⟨halive, fun cause => by simp [awaitHeader, BufferedByteReceiveStream.suspend], ?_⟩
    refine .header status payload (.header rfl offset rfl) hcommands ?_ ?_ hshort hanswers hsent
    · rwa [headerLine_length]
    · simpa [State.bytes, awaitHeader, BufferedByteReceiveStream.suspend] using hbytes
  · obtain ⟨surplus, hbuffer⟩ :=
      List.prefix_of_prefix_length_le hprefix (List.prefix_append _ _) hlong.le
    rw [← hbuffer, List.append_assoc, List.append_cancel_left_eq] at hsplit
    cases surplus with
    | nil => simp [← hbuffer] at hlong
    | cons c surplus =>
        obtain ⟨rfl, hpayload⟩ := List.cons.inj hsplit
        have hfound := find_singleton_append_cons _ surplus hline hoffset
        rw [BufferedByteReceiveStream.receiveUntil, ← hbuffer, hfound]
        simp only [awaitHeader, List.take_left, Option.getD_some, afterHeader_eq]
        refine awaitPayload_proceeds halive hcommands ?_ hanswers hsent
        simpa using hpayload

end Rounds

section Steps
variable {s : State} {h : History} {a : Action} {r : State × Reply}

/-- The parent is inside of `send_raw_command()` at all stages but the first. -/
theorem AtHeader.ne_outside (hp : AtHeader s) : s.point ≠ .outside := by
  cases hp with
  | sending hp => simp [hp]
  | header hp => simp [hp]

/-- Between commands nothing is in flight. -/
theorem Stage.idle_of_outside (stage : Stage s h) (hp : s.point = .outside) :
    s.commands = 0 ∧ s.bytes = [] ∧ h.recovered = h.answers ∧ h.sent = h.answers.length := by
  cases stage with
  | idle _ hcommands hbytes hrecovered hsent => exact ⟨hcommands, hbytes, hrecovered, hsent⟩
  | unanswered hp' => exact absurd hp hp'.ne_outside
  | header _ _ hp' => exact absurd hp hp'.ne_outside
  | payload _ _ hp' => simp [hp'] at hp

/-- A write moves bytes from the worker to the pipe. -/
theorem Stage.write (stage : Stage s h) {payload : Bytes} (hu : s.unwritten = some payload) :
    Stage { s with pipe := s.pipe ++ payload, unwritten := none } h := by
  have hsame : State.bytes { s with pipe := s.pipe ++ payload, unwritten := none } = s.bytes := by
    simp [State.bytes, hu]
  have hpoint : AtHeader s → AtHeader { s with pipe := s.pipe ++ payload, unwritten := none } := by
    intro hp
    cases hp with
    | sending hp => exact .sending hp
    | header hp offset hbuffered => exact .header hp offset hbuffered
  cases stage with
  | idle hp hcommands hbytes hrecovered hsent =>
      exact .idle hp hcommands (hsame.trans hbytes) hrecovered hsent
  | unanswered hp hcommands hbytes hrecovered hsent =>
      exact .unanswered (hpoint hp) hcommands (hsame.trans hbytes) hrecovered hsent
  | header status content hp hcommands hfits hbytes hshort hanswers hsent =>
      exact .header status content (hpoint hp) hcommands hfits (hsame.trans hbytes) hshort
        hanswers hsent
  | payload status content hp hbuffered hcommands hbytes hshort hanswers hsent =>
      exact .payload status content hp hbuffered hcommands (hsame.trans hbytes) hshort
        hanswers hsent

/-- The worker answers only a command that it has not answered. -/
theorem Stage.answer (stage : Stage s h) (status : Status) (payload : Bytes)
    (hcommands : 0 < s.commands) (hu : s.unwritten = none)
    (hfits : (ToProcess.header status.bytes payload.length).length ≤ 50) :
    Stage { s with
      pipe := s.pipe ++ ToProcess.header status.bytes payload.length
      commands := s.commands - 1
      unwritten := some payload }
      { h with answers := h.answers ++ [(status.bytes, payload)] } := by
  cases stage with
  | idle _ hnone => omega
  | header _ _ _ hnone => omega
  | payload _ _ _ _ hnone => omega
  | unanswered hp hone hbytes hrecovered hsent =>
      have hempty : s.buffered.buffer = [] ∧ s.pipe = [] := by
        simpa [State.bytes, hu] using hbytes
      refine .header status payload ?_ (by simp [hone]) hfits ?_ ?_ ?_ ?_
      · cases hp with
        | sending hp => exact .sending hp
        | header hp offset hbuffered => exact .header hp offset hbuffered
      · simp [State.bytes, hempty]
      · simp [hempty]
      · simp [hrecovered]
      · simp [hsent]

/-- After `stdin.send()` the parent looks for a header. -/
theorem Stage.sent (stage : Stage s h) (halive : s.killed = false) (hp : s.point = .sending) :
    Proceeds h (awaitHeader s
      (BufferedByteReceiveStream.receiveUntil s.buffered [newline] 50 0)) := by
  cases stage with
  | idle hp' => simp [hp'] at hp
  | payload _ _ hp' => simp [hp'] at hp
  | header status payload _ hcommands hfits hbytes _ hanswers hsent =>
      refine awaitHeader_proceeds halive hcommands hfits ?_ (Nat.zero_le _) hanswers hsent
      simpa [State.bytes] using hbytes
  | unanswered _ hcommands hbytes hrecovered hsent =>
      have hempty : s.buffered.buffer = [] := by
        simp only [State.bytes, List.append_eq_nil_iff] at hbytes
        exact hbytes.1.1
      have hwait : BufferedByteReceiveStream.receiveUntil s.buffered [newline] 50 0 =
          BufferedByteReceiveStream.suspend s.buffered (.receivingUntil [newline] 50 0) := by
        rw [BufferedByteReceiveStream.receiveUntil, hempty,
          find_singleton_of_not_mem List.not_mem_nil]
        rfl
      rw [hwait]
      refine ⟨halive, fun cause => by simp [awaitHeader, BufferedByteReceiveStream.suspend], ?_⟩
      exact .unanswered (.header rfl 0 rfl) hcommands hbytes hrecovered hsent

/-- Whatever the size of the chunk, the read that waits for it goes on as it would have with
another one. -/
theorem Stage.arrive (stage : Stage s h) (halive : s.killed = false) {chunk : Bytes}
    (hne : chunk ≠ []) (hchunk : chunk <+: s.pipe) (hr : arrive s chunk = some r) :
    Proceeds h r := by
  obtain ⟨rest, hpipe⟩ := hchunk
  have hdrop : s.pipe.drop chunk.length = rest := by rw [← hpipe, List.drop_left]
  rw [ToProcess.arrive, hdrop] at hr
  cases stage with
  | idle hp => simp [hp] at hr
  | unanswered _ _ hbytes =>
      simp [State.bytes, ← hpipe, hne] at hbytes
  | header status payload hp hcommands hfits hbytes hshort hanswers hsent =>
      cases hp with
      | sending hp => simp [hp] at hr
      | header hp offset hbuffered =>
          simp only [hp, BufferedByteReceiveStream.arrive, hbuffered, Option.some.injEq] at hr
          rw [← hr]
          refine awaitHeader_proceeds halive hcommands hfits ?_ ?_ hanswers hsent
          · simpa [State.bytes, ← hpipe] using hbytes
          · simpa using hshort
  | payload status payload hp hbuffered hcommands hbytes hshort hanswers hsent =>
      simp only [hp, BufferedByteReceiveStream.arrive, hbuffered, Option.some.injEq] at hr
      rw [← hr]
      refine awaitPayload_proceeds halive hcommands ?_ hanswers hsent
      simpa [State.bytes, ← hpipe] using hbytes

/-- What holds in every state: only cancellations end a command without its answer. -/
structure Framed (s : State) (h : History) : Prop where
  stopped : s.killed = true → s.point = .outside
  failures : ∀ cause ∈ h.failures, cause = .stream .cancelledError
  inOrder : h.recovered <+: h.answers
  stage : s.killed = false → Stage s h

theorem Stage.inOrder (stage : Stage s h) : h.recovered <+: h.answers := by
  cases stage with
  | idle _ _ _ hrecovered => exact hrecovered ▸ List.prefix_rfl
  | unanswered _ _ _ hrecovered => exact hrecovered ▸ List.prefix_rfl
  | header _ _ _ _ _ _ _ hanswers => exact hanswers ▸ List.prefix_append _ _
  | payload _ _ _ _ _ _ _ hanswers => exact hanswers ▸ List.prefix_append _ _

theorem Stage.framed (stage : Stage s h) (halive : s.killed = false)
    (hfailures : ∀ cause ∈ h.failures, cause = .stream .cancelledError) : Framed s h where
  stopped hkilled := by simp [halive] at hkilled
  failures := hfailures
  inOrder := stage.inOrder
  stage _ := stage

theorem Proceeds.framed (proceeds : Proceeds h r)
    (hfailures : ∀ cause ∈ h.failures, cause = .stream .cancelledError) :
    Framed r.1 (h.reply r.2) := by
  apply proceeds.stage.framed proceeds.alive
  cases hr : r.2 with
  | none => exact hfailures
  | recovered status payload => exact hfailures
  | failed cause => exact absurd hr (proceeds.calm cause)

/-- A point inside of `send_raw_command()` is one of a worker that is alive. -/
theorem Framed.alive (framed : Framed s h) (hp : s.point ≠ .outside) : s.killed = false := by
  rw [← Bool.not_eq_true]
  exact fun hkilled => hp (framed.stopped hkilled)

theorem Framed.step (framed : Framed s h) (ok : Fits (s, h) a) (hs : step s a = some r) :
    Framed r.1 (record h s a r.2) := by
  cases a with
  | renew =>
      obtain ⟨hp, ⟨⟩⟩ := Option.ite_none_right_eq_some.mp hs
      refine ⟨fun _ => hp, framed.failures, framed.inOrder, fun halive => ?_⟩
      obtain ⟨hcommands, hbytes, hrecovered, hsent⟩ := (framed.stage halive).idle_of_outside hp
      refine .idle hp hcommands ?_ hrecovered hsent
      simp only [State.bytes, List.append_eq_nil_iff] at hbytes
      simp [State.bytes, BufferedByteReceiveStream.initial, hbytes]
  | command =>
      obtain ⟨⟨hp, halive⟩, ⟨⟩⟩ := Option.ite_none_right_eq_some.mp hs
      obtain ⟨hcommands, hbytes, hrecovered, hsent⟩ := (framed.stage halive).idle_of_outside hp
      have stage : Stage { s with point := .sending, commands := s.commands + 1 }
          { h with sent := h.sent + 1 } :=
        .unanswered (.sending rfl) (by simp [hcommands]) hbytes hrecovered (by simp [hsent])
      exact stage.framed halive framed.failures
  | sent =>
      obtain ⟨hp, ⟨⟩⟩ := Option.ite_none_right_eq_some.mp hs
      have halive := framed.alive (by simp [hp])
      exact ((framed.stage halive).sent halive hp).framed framed.failures
  | writeHeader status payload =>
      obtain ⟨⟨halive, hcommands, hu⟩, ⟨⟩⟩ := Option.ite_none_right_eq_some.mp hs
      exact ((framed.stage halive).answer status payload hcommands hu ok).framed halive
        framed.failures
  | writePayload =>
      cases hu : s.unwritten with
      | none => simp [ToProcess.step, hu] at hs
      | some payload =>
          simp only [ToProcess.step, hu] at hs
          obtain ⟨halive, ⟨⟩⟩ := Option.ite_none_right_eq_some.mp hs
          exact ((framed.stage halive).write hu).framed halive framed.failures
  | arrives chunk =>
      obtain ⟨⟨hne, hchunk, -⟩, hs⟩ := Option.ite_none_right_eq_some.mp hs
      have halive : s.killed = false := by
        apply framed.alive
        intro hp
        simp [arrive, hp] at hs
      exact ((framed.stage halive).arrive halive hne hchunk hs).framed framed.failures
  | interrupt =>
      obtain ⟨hp, ⟨⟩⟩ := Option.ite_none_left_eq_some.mp hs
      refine ⟨fun _ => rfl, ?_, framed.inOrder, fun halive => by cases halive⟩
      intro cause hcause
      rcases List.mem_append.mp hcause with hcause | hcause
      · exact framed.failures cause hcause
      · exact List.mem_singleton.mp hcause

/-- While a command goes on and the worker has written its answer, something is left to read. -/
theorem Stage.readable (stage : Stage s h) (hp : s.point ≠ .outside) (hcommands : s.commands = 0)
    (hu : s.unwritten = none) :
    s.pipe ≠ [] ∧ (s.point = .sending ∨ 0 < BufferedByteReceiveStream.asked s.buffered) := by
  cases stage with
  | idle hp' => exact absurd hp' hp
  | unanswered _ hone => omega
  | header status payload hp' _ _ hbytes hshort =>
      constructor
      · intro hpipe
        have hlength := congrArg List.length hbytes
        simp only [State.bytes, hpipe, hu, Option.getD_none, List.append_nil, List.length_append,
          headerLine_length] at hlength
        omega
      · cases hp' with
        | sending hp' => exact .inl hp'
        | header _ offset hbuffered =>
            simp [BufferedByteReceiveStream.asked, hbuffered]
  | payload status payload _ hbuffered _ hbytes hshort =>
      constructor
      · intro hpipe
        have hlength := congrArg List.length hbytes
        simp only [State.bytes, hpipe, hu, Option.getD_none, List.append_nil] at hlength
        omega
      · refine .inr ?_
        simp only [BufferedByteReceiveStream.asked, hbuffered]
        omega

end Steps

variable {s : State} {h : History}

theorem Framed.of_run (run : recorded.Reachable Fits (initial, .empty) (s, h)) : Framed s h := by
  refine run.invariant_history (I := Framed) ?_ fun _ _ _ _ _ framed ok hs => framed.step ok hs
  have stage : Stage initial .empty := .idle rfl rfl rfl rfl rfl
  exact stage.framed rfl fun cause hcause => absurd hcause List.not_mem_nil

/-- In every run with a worker whose headers have at most 50 bytes, however its pipe cuts up the
answers, a command fails by being cancelled and in no other way. The results are the answers of
the worker in order. After a command that was not cancelled every command has its answer, and
neither the buffer nor the pipe nor the worker keeps a byte; while a command goes on and its
answer has been written, there are bytes to read and the parent asks for some. -/
theorem answer_recovered (run : recorded.Reachable Fits (initial, .empty) (s, h)) :
    (∀ cause ∈ h.failures, cause = .stream .cancelledError) ∧
    h.recovered <+: h.answers ∧
    (s.killed = false → s.point = .outside →
      h.recovered = h.answers ∧ h.recovered.length = h.sent ∧
      s.buffered.buffer = [] ∧ s.pipe = [] ∧ s.unwritten.getD [] = []) ∧
    (s.point ≠ .outside → s.commands = 0 → s.unwritten = none →
      s.pipe ≠ [] ∧ (s.point = .sending ∨ 0 < BufferedByteReceiveStream.asked s.buffered)) := by
  have framed := Framed.of_run run
  refine ⟨framed.failures, framed.inOrder, fun halive hp => ?_, fun hp hcommands hu => ?_⟩
  · obtain ⟨-, hbytes, hrecovered, hsent⟩ := (framed.stage halive).idle_of_outside hp
    simp only [State.bytes, List.append_eq_nil_iff] at hbytes
    exact ⟨hrecovered, by rw [hrecovered, hsent], hbytes.1.1, hbytes.1.2, hbytes.2⟩
  · exact (framed.stage (framed.alive hp)).readable hp hcommands hu

/-- Two commands, the first with an answer that looks like the end of a header and comes in four
chunks, the second with an empty payload and through a new buffered stream. -/
theorem answer_recovered_twice :
    let answers := [(ascii "RETURN", [10, 32, 7]), (ascii "EXCEPTION", [])]
    recorded.Reachable Fits (initial, .empty) (initial, ⟨2, answers, answers, []⟩) ∧
      answers.length = 2 ∧ initial.buffered.buffer = [] := by
  let actions : List Action :=
    [.command, .writeHeader .returned [10, 32, 7], .sent, .arrives (ascii "RETU"), .writePayload,
      .arrives (ascii "RN 3" ++ [10, 10]), .arrives [32], .arrives [7], .renew, .command, .sent,
      .writeHeader .exception [], .arrives (ascii "EXCEPTION 0" ++ [10]), .writePayload]
  have hexec : recorded.exec Fits (initial, .empty) actions = some (initial,
      ⟨2, [(ascii "RETURN", [10, 32, 7]), (ascii "EXCEPTION", [])],
        [(ascii "RETURN", [10, 32, 7]), (ascii "EXCEPTION", [])], []⟩) := by
    decide +kernel
  have run := Machine.exec_reachable_from .refl hexec
  obtain ⟨-, hlength, hbuffer, -⟩ := (answer_recovered run).2.2.1 rfl rfl
  exact ⟨run, hlength, hbuffer⟩

end Anyio.ToProcess
