import Anyio.Library.FixedWidth
import Anyio.RawSocket.Model

/-!
# File descriptors that travel with a message

`send_fds()` and `receive_fds()` of a `UNIXSocketStream`. The descriptors are
the items of an array of C integers, and its bytes are the data of a control
message. The operating system may cut these bytes anywhere; what is complete
arrives, in order.

## Implementation notes

The constants of the platform, the order of its bytes and the `repr()` of a
message are parameters. A number stands for the open file that it refers to: the
kernel gives the receiver numbers of its own for the same files. Both calls
repeat their system call while the socket would block, the way `receive()` and
`send()` do, so the answers of the system are a list, and nothing is known before
one of them is not `BlockingIOError`.
-/

namespace Anyio.RawSocket

open Library

/-- `SOL_SOCKET`, `SCM_RIGHTS`, the order of the bytes of an integer, and `repr()` of a message. -/
structure Platform where
  solSocket : Int
  scmRights : Int
  order : ByteOrder
  repr : Bytes → String

/-- One item of the ancillary data: a level, a type and the data. -/
structure ControlMessage where
  level : Int
  type : Int
  data : Bytes
  deriving DecidableEq, Repr

/-- What stands for a file: a number, an open file with its `fileno()`, or anything else. -/
inductive FileLike
  | int (fd : Int)
  | file (fileno : Int)
  | other
  deriving DecidableEq, Repr

/-- The number of a file; what is neither a number nor an open file is passed over. -/
def FileLike.fileno : FileLike → Option Int
  | .int fd => some fd
  | .file fileno => some fileno
  | .other => none

def filenos (fds : List FileLike) : List Int := fds.filterMap FileLike.fileno

/-- The control message of `send_fds()`. -/
def rights (p : Platform) (fds : List FileLike) : ControlMessage :=
  ⟨p.solSocket, p.scmRights, (intArray p.order).tobytes (filenos fds)⟩

/-- `array.array("i", filenos)` with a number that is not a C integer. -/
def overflow : Error := .other "OverflowError"

/-- `send_fds()` up to its system call: the message and the ancillary data. -/
def sendFds (p : Platform) (message : Bytes) (fds : List FileLike) :
    Except Error (Bytes × List ControlMessage) :=
  if message = [] then .error (.valueError "message must not be empty")
  else if fds = [] then .error (.valueError "fds must not be empty")
  else if ∀ v ∈ filenos fds, CInt v then .ok (message, [rights p fds])
  else .error overflow

/-- The text of the `RuntimeError` for a control message that is none of `send_fds()`. -/
def unexpected (p : Platform) (message : Bytes) (item : ControlMessage) : Error :=
  .runtimeError ("Received unexpected ancillary data; message = " ++ p.repr message ++
    ", cmsg_level = " ++ toString item.level ++ ", cmsg_type = " ++ toString item.type)

/-- `array.frombytes()` with data that is not made of whole items. -/
def notWhole : Error := .valueError "bytes length not a multiple of item size"

/-- The loop over the ancillary data; `fds` is the array so far. -/
def readAncillary (p : Platform) (message : Bytes) (fds : List Int) :
    List ControlMessage → Except Error (List Int)
  | [] => .ok fds
  | item :: rest =>
      if item.level ≠ p.solSocket ∨ item.type ≠ p.scmRights then
        .error (unexpected p message item)
      else
        match (intArray p.order).frombytes ((intArray p.order).whole item.data) with
        | none => .error notWhole
        | some more => readAncillary p message (fds ++ more) rest

/-- The first answer of the system that ends the loop around its call. -/
def firstAnswer {α : Type*} : List (Attempt α) → Attempt α
  | [] => .blocks
  | .blocks :: rest => firstAnswer rest
  | .fails :: _ => .fails
  | .gives result :: _ => .gives result

/-- `receive_fds()` with the answers to its calls of `recvmsg()`, or nothing while it waits. -/
def receiveFds (p : Platform) (closing : Bool) (msglen maxfds : Int)
    (answers : List (Attempt (Bytes × List ControlMessage))) :
    Option (Except Error (Bytes × List Int)) :=
  if msglen < 0 then some (.error (.valueError "msglen must be a non-negative integer"))
  else if maxfds < 1 then some (.error (.valueError "maxfds must be a positive integer"))
  else
    match firstAnswer answers with
    | .blocks => none
    | .fails => some (.error (if closing then .closedResourceError else .brokenResourceError))
    | .gives (message, ancdata) =>
        if message = [] ∧ ancdata = [] then some (.error .endOfStream)
        else some ((readAncillary p message [] ancdata).map fun fds => (message, fds))

variable {p : Platform} {message : Bytes} {fds : List FileLike}
  {packet : Bytes × List ControlMessage}

/-- What the operating system leaves of a control message when it cuts its data. -/
def ControlMessage.cut (item : ControlMessage) (n : Nat) : ControlMessage :=
  { item with data := item.data.take n }

theorem sendFds_ok (hsent : sendFds p message fds = .ok packet) :
    packet = (message, [rights p fds]) ∧ ∀ v ∈ filenos fds, CInt v := by
  unfold sendFds at hsent
  split_ifs at hsent with hmessage hfds hvalid
  exact ⟨(Except.ok.inj hsent).symm, hvalid⟩

theorem firstAnswer_replicate {α : Type*} (k : Nat) (answers : List (Attempt α)) :
    firstAnswer (List.replicate k .blocks ++ answers) = firstAnswer answers := by
  induction k with
  | zero => rfl
  | succ k ih => exact ih

/-- Control messages of `send_fds()`, each cut somewhere, are read as the descriptors that are
complete in them, and an item of another kind stops the reading, whatever follows it. -/
theorem readAncillary_rights (p : Platform) (message : Bytes) (before : List Int)
    (sends : List (List FileLike × Nat)) (hvalid : ∀ c ∈ sends, ∀ v ∈ filenos c.1, CInt v)
    (rest : List ControlMessage) :
    readAncillary p message before ((sends.map fun c => (rights p c.1).cut c.2) ++ rest) =
      readAncillary p message (before ++ sends.flatMap fun c => (filenos c.1).take (c.2 / 4))
        rest := by
  induction sends generalizing before with
  | nil => simp
  | cons c sends ih =>
      have hread : (intArray p.order).frombytes
          ((intArray p.order).whole ((rights p c.1).cut c.2).data) =
            some ((filenos c.1).take (c.2 / 4)) :=
        (intArray p.order).frombytes_whole_take (hvalid c List.mem_cons_self) c.2
      have hkind : ¬(((rights p c.1).cut c.2).level ≠ p.solSocket ∨
          ((rights p c.1).cut c.2).type ≠ p.scmRights) := by
        rintro (h | h) <;> exact h rfl
      rw [List.map_cons, List.cons_append, readAncillary, if_neg hkind, hread]
      simp only
      rw [ih _ fun d hd => hvalid d (List.mem_cons_of_mem c hd), List.flatMap_cons,
        List.append_assoc]

/-- What was sent in any calls of `send_fds()` and is received together, whatever the operating
system cuts off: the descriptors that are complete arrive in their order, with the message that
was received, and after any number of times at which the socket would have blocked. An item of
another kind among them makes `receive_fds()` raise and name that item. -/
theorem descriptors_arrive (p : Platform) (closing : Bool) (msglen maxfds : Int)
    (hmsglen : 0 ≤ msglen) (hmaxfds : 1 ≤ maxfds) (sends : List (List FileLike × Nat))
    (hsent : ∀ c ∈ sends, ∃ message packet, sendFds p message c.1 = .ok packet)
    (hsome : sends ≠ []) (message : Bytes) (k : Nat) (more : List (Attempt _)) :
    receiveFds p closing msglen maxfds (List.replicate k .blocks ++
        .gives (message, sends.map fun c => (rights p c.1).cut c.2) :: more) =
      some (.ok (message, sends.flatMap fun c => (filenos c.1).take (c.2 / 4))) ∧
    ∀ item rest, item.level ≠ p.solSocket ∨ item.type ≠ p.scmRights →
      receiveFds p closing msglen maxfds (List.replicate k .blocks ++
          .gives (message, (sends.map fun c => (rights p c.1).cut c.2) ++ item :: rest) :: more) =
        some (.error (unexpected p message item)) := by
  have hvalid : ∀ c ∈ sends, ∀ v ∈ filenos c.1, CInt v := by
    intro c hc
    obtain ⟨_, _, hok⟩ := hsent c hc
    exact (sendFds_ok hok).2
  have hread : ∀ ancdata, ancdata ≠ [] →
      receiveFds p closing msglen maxfds
          (List.replicate k .blocks ++ .gives (message, ancdata) :: more) =
        some ((readAncillary p message [] ancdata).map fun fds => (message, fds)) := by
    intro ancdata hne
    rw [receiveFds, if_neg (by omega), if_neg (by omega), firstAnswer_replicate, firstAnswer]
    simp only [hne, and_false, if_false]
  constructor
  · rw [hread _ (by simpa using hsome)]
    have hall := readAncillary_rights p message [] sends hvalid []
    rw [List.append_nil] at hall
    rw [hall]
    rfl
  · intro item rest hforeign
    rw [hread _ (by simp), readAncillary_rights p message [] sends hvalid, readAncillary,
      if_pos hforeign]
    rfl

/-- Linux on a little-endian machine. -/
def linux : Platform := ⟨1, 1, .little, fun _ => ""⟩

/-- Two calls of `send_fds()`; the system has cut off the last two bytes of the second one. -/
theorem descriptors_arrive_cut :
    receiveFds linux false 5 4 [.blocks, .gives ([104, 105],
        [⟨1, 1, [3, 0, 0, 0]⟩, ⟨1, 1, [255, 1, 0, 0, 9, 0]⟩])] =
      some (.ok ([104, 105], [3, 511])) := by
  have arrive := (descriptors_arrive linux false 5 4 (by decide)
    (by decide) [([.int 3], 4), ([.file 511, .other, .int 9], 6)] (by
      intro c hc
      rcases List.mem_cons.mp hc with rfl | hc
      · exact ⟨[104], _, rfl⟩
      · rw [List.mem_singleton.mp hc]
        exact ⟨[105], _, rfl⟩) (by decide) [104, 105] 1 []).1
  exact arrive

end Anyio.RawSocket
