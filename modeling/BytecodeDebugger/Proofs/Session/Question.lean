import BytecodeDebugger.Proofs.Connect.LifeCycle
import BytecodeDebugger.Proofs.Session.DebuggerEnd

/-!
# Questions to a front end

A question is repeated until a frame settles it. Frames that say neither yes nor no are of no use:
each is answered with a request for one of the two, and the question comes again. What comes behind
the frame that settles the question is left for later.

Main facts: `answer?_stripLineEnd` (what a frame answers), `Settled.again` (one frame more that is
of no use) and `settled_confirmWithin` (a question over a queue of frames).
-/

namespace BytecodeDebugger

/-! ## Frames as answers -/

namespace Frame

/-- The word of an answer: its text without the line end and the blanks around it, in lower case. -/
def word (f : Frame) : String := Text.foldCase (Text.trim (Text.stripLineEnd f.payload))

/-- Whether the frame settles a question: its sender is leaving, or says yes or no. -/
def settles (f : Frame) : Bool :=
  f.role? = some .quit || f.word ∈ ["y", "yes", "n", "no"]

/-- What a question comes to that the frame settles. -/
def verdict (f : Frame) (default : Bool) : Bool :=
  if f.role? = some .quit then default else f.word ∈ ["y", "yes"]

end Frame

namespace Server

/-- A frame answers a question if it settles it. -/
theorem answer?_stripLineEnd {f : Frame} (hquit : f.role? ≠ some .quit) (default : Bool) :
    answer? (Text.stripLineEnd f.payload) =
      if f.settles then some (f.verdict default) else none := by
  have hword : Text.foldCase (Text.trim (Text.stripLineEnd f.payload)) = f.word := rfl
  unfold answer?
  rw [hword, Frame.settles, Frame.verdict]
  split <;> simp_all

/-! ## One attempt -/

/-- The frame of a question. -/
def questionFrame (question : String) (default : Bool) : Frame :=
  .ofRole (.confirm default) (question ++ "\n")

/-- The frame that insists on one of the two answers. -/
def insistence : Frame := .ofRole .print "Please answer y or n.\n"

/-- Sends a request, if there is one, and receives the frame that comes back. -/
def await {τ : Type} [Transport τ] (request? : Option Frame) (c : Connection τ) :
    Except ConnectError (Option Frame) × Connection τ :=
  match request? with
  | none => c.receive
  | some q =>
    match c.send q with
    | (.error e, c) => (.error e, c)
    | (.ok (), c) => c.receive

/-- One attempt more at a question. -/
theorem confirmWithin_succ_await {τ : Type} [Transport τ] (question : String) (default : Bool)
    (attempts : Nat) (c : Connection τ) :
    (confirmWithin question default (attempts + 1)).on c =
      match await (some (questionFrame question default)) c with
      | (.error e, c) => (.error e, c)
      | (.ok none, c) => (.ok default, c)
      | (.ok (some f), c) =>
        if f.settles then (.ok (f.verdict default), c)
        else
          match c.send insistence with
          | (.error e, c) => (.error e, c)
          | (.ok (), c) => (confirmWithin question default attempts).on c := by
  have hask : c.writeLine (.confirm default) question = c.send (questionFrame question default) :=
    rfl
  have hinsist : ∀ d : Connection τ, (say "Please answer y or n.").on d = d.send insistence :=
    fun _ => rfl
  rw [confirmWithin_succ_on, hask, await]
  rcases c.send (questionFrame question default) with ⟨e | _, d⟩
  · rfl
  · dsimp only
    rw [receiveLine_on]
    rcases d.receive with ⟨e | _ | f, d⟩
    · rfl
    · rfl
    · dsimp only
      by_cases hquit : f.role? = some .quit
      · simp [hquit, Frame.settles, Frame.verdict]
      · rw [if_neg hquit]
        dsimp only
        rw [answer?_stripLineEnd hquit default]
        by_cases hsettles : f.settles = true
        · rw [if_pos hsettles, if_pos hsettles]
        · rw [if_neg hsettles, if_neg hsettles]
          rcases hsend : d.send insistence with ⟨e | _, d'⟩ <;> simp only [hinsist, hsend]

/-! ## On a queue -/

/-- What a question over a queue comes to. The frames in front of the first one that settles it are
of no use, and all of them are if there is none. -/
structure Settled (question : String) (default : Bool) (c : Connection QueueTransport)
    (r : Except ConnectError Bool) (c' : Connection QueueTransport) : Prop where
  /-- The first frame that settles the question does, or the suggested answer counts. -/
  result_eq : r = .ok (match c.transport.incoming.find? Frame.settles with
    | some f => f.verdict default
    | none => default)
  /-- The question is asked, and once more after each frame that is of no use. -/
  sent_eq : c'.transport.sent = c.transport.sent ++
    (List.replicate (c.transport.incoming.findIdx Frame.settles)
      [questionFrame question default, insistence]).flatten ++ [questionFrame question default]
  /-- What comes behind the frame that settles the question is left. -/
  incoming_eq : c'.transport.incoming =
    c.transport.incoming.drop (c.transport.incoming.findIdx Frame.settles + 1)
  /-- Only the end of the queue closes the connection. -/
  state_eq : c'.state =
    if c.transport.incoming.findIdx Frame.settles = c.transport.incoming.length then .disconnected
    else .connected

variable {question : String} {default : Bool} {c : Connection QueueTransport} {f : Frame}
  {rest : List Frame}

/-- One attempt more at a question, over a queue that takes everything. -/
theorem confirmWithin_succ_of_steady (hc : c.IsSteady) (question : String) (default : Bool)
    (attempts : Nat) :
    (confirmWithin question default (attempts + 1)).on c =
      match c.transport.incoming with
      | [] => (.ok default, (c.keep (questionFrame question default)).close)
      | f :: rest =>
        let heard := (c.keep (questionFrame question default)).hear f rest
        if f.settles then (.ok (f.verdict default), heard)
        else (confirmWithin question default attempts).on (heard.keep insistence) := by
  have hasked : (c.keep (questionFrame question default)).IsSteady := hc.keep _
  rw [confirmWithin_succ_await, await, hc.send_eq]
  dsimp only
  cases hqueue : c.transport.incoming with
  | nil => rw [hasked.receive_of_nil hqueue]
  | cons f rest =>
    rw [hasked.receive_of_cons hqueue]
    dsimp only
    rw [(hasked.hear f rest).send_eq]

/-- A queue that ends leaves the suggested answer. -/
theorem settled_of_nil (hqueue : c.transport.incoming = []) (hup : c.IsUp) :
    Settled question default c (.ok default)
      (c.keep (questionFrame question default)).close := by
  have hdown := ((hup.keep (questionFrame question default)).close).1
  constructor
  case result_eq => rw [hqueue]; rfl
  case sent_eq => rw [hqueue, Connection.sent_close]; simp [Connection.keep]
  case incoming_eq => rw [Connection.incoming_close, hqueue]; exact hqueue
  case state_eq => rw [hdown, hqueue]; rfl

/-- The first frame settles the question. -/
theorem settled_of_settles (hqueue : c.transport.incoming = f :: rest) (hup : c.IsUp)
    (hf : f.settles = true) :
    Settled question default c (.ok (f.verdict default))
      ((c.keep (questionFrame question default)).hear f rest) := by
  have hidx : (f :: rest).findIdx Frame.settles = 0 := by simp [List.findIdx_cons, hf]
  constructor
  case result_eq => rw [hqueue, List.find?_cons_of_pos hf]
  case sent_eq => rw [hqueue, hidx]; simp [Connection.keep, Connection.hear]
  case incoming_eq => rw [hqueue, hidx]; rfl
  case state_eq => rw [hqueue, hidx]; exact hup.1

/-- After a frame that is of no use, the question is asked again. -/
theorem Settled.again {r : Except ConnectError Bool} {c' : Connection QueueTransport}
    (hqueue : c.transport.incoming = f :: rest) (hf : f.settles = false)
    (h : Settled question default
      (((c.keep (questionFrame question default)).hear f rest).keep insistence) r c') :
    Settled question default c r c' := by
  have hidx : (f :: rest).findIdx Frame.settles = rest.findIdx Frame.settles + 1 := by
    simp [List.findIdx_cons, hf]
  obtain ⟨hresult, hsent, hincoming, hstate⟩ := h
  constructor
  case result_eq => rw [hqueue, List.find?_cons_of_neg (by simp [hf])]; exact hresult
  case sent_eq =>
    rw [hsent, hqueue, hidx, List.replicate_succ, List.flatten_cons]
    simp [Connection.keep, Connection.hear]
  case incoming_eq => rw [hincoming, hqueue, hidx]; rfl
  case state_eq =>
    rw [hstate, hqueue, hidx]
    simp [Connection.keep, Connection.hear]

/-- With an attempt for each frame of the queue, and one for its end, the question is settled. -/
theorem settled_confirmWithin {attempts : Nat} (hc : c.IsSteady)
    (h : c.transport.incoming.length < attempts) :
    Settled question default c ((confirmWithin question default attempts).on c).1
      ((confirmWithin question default attempts).on c).2 := by
  induction attempts generalizing c with
  | zero => exact absurd h (Nat.not_lt_zero _)
  | succ attempts ih =>
    rw [confirmWithin_succ_of_steady hc]
    cases hqueue : c.transport.incoming with
    | nil => exact settled_of_nil hqueue hc.1
    | cons f rest =>
      rw [hqueue] at h
      dsimp only
      by_cases hf : f.settles = true
      · rw [if_pos hf]
        exact settled_of_settles hqueue hc.1 hf
      · rw [if_neg hf]
        have hagain : (((c.keep (questionFrame question default)).hear f rest).keep
            insistence).IsSteady := hc
        exact .again hqueue (by simpa using hf) (ih hagain (Nat.lt_of_succ_lt_succ h))

/-- A question to a front end is repeated until a frame settles it. Over an open queue that takes
everything: the first frame that settles the question tells what it comes to, and the end of the
queue leaves the suggested answer; the question is asked once more than there are frames of no use,
each of which is met with an insistence; and the frames behind the one that settles it are left. -/
theorem confirm_until_settled (hup : c.IsUp) (hsends : c.transport.failSend = false)
    (question : String) (default : Bool) :
    Settled question default c ((confirm question default).on c).1
      ((confirm question default).on c).2 := by
  have hbacklog : Transport.backlog c.transport = c.transport.incoming.length := rfl
  rw [confirm, Action.on_of, hbacklog]
  exact settled_confirmWithin ⟨hup, hsends⟩ (Nat.lt_succ_self _)

/-- A front end that first says something else, then yes in its own way, and sends a frame more. -/
def hesitant : Connection QueueTransport :=
  .live [.reply "maybe", .reply " YES \r\n", .reply "n"] [] none

/-- It is asked twice, and its last frame is left. -/
theorem confirm_until_settled_hesitant : hesitant.IsUp ∧ hesitant.transport.failSend = false ∧
    Settled "Really quit?" false hesitant ((confirm "Really quit?" false).on hesitant).1
      ((confirm "Really quit?" false).on hesitant).2 ∧
    ((confirm "Really quit?" false).on hesitant).1 = .ok true ∧
    ((confirm "Really quit?" false).on hesitant).2.transport.incoming = [.reply "n"] := by
  have hup : hesitant.IsUp := ⟨rfl, rfl⟩
  refine ⟨hup, rfl, confirm_until_settled hup rfl _ _, ?_, ?_⟩ <;> decide +kernel

end Server

end BytecodeDebugger
