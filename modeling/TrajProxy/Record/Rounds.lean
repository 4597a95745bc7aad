import TrajProxy.Direct.Reconstructed
import TrajProxy.Record.Run

/-! The loops of the two `process_stream` functions. That of the direct pipeline
is `Direct.processStream` on the chunks it takes; that of the token pipeline
changes the state of the stream and what was sent, and nothing else. -/

namespace TrajProxy.Record

variable {π : Type} {env : Surroundings}

section Direct

/-- The chunks the loop takes before something ends it. -/
def takenChunks : List DirectRound → List Direct.ChatChunk
  | [] => []
  | ⟨.error _, _⟩ :: _ => []
  | ⟨.ok chunk, some _⟩ :: _ => [chunk]
  | ⟨.ok chunk, none⟩ :: rest => chunk :: takenChunks rest

/-- What ends the loop early, if anything does. -/
def loopRaised (exhausted : Option Raised) : List DirectRound → Option Raised
  | [] => exhausted
  | ⟨.error e, _⟩ :: _ => some e
  | ⟨.ok _, some e⟩ :: _ => some e
  | ⟨.ok _, none⟩ :: rest => loopRaised exhausted rest

/-- The world after these chunks. -/
def World.streamed (w : World Direct.DirectContext) (chunks : List Direct.ChatChunk) :
    World Direct.DirectContext :=
  { w with
    stream := (Direct.processStream w.stream chunks).2
    sent := w.sent ++ (Direct.processStream w.stream chunks).1.map Direct.ChatChunk.toItems }

theorem World.streamed_cons (w : World Direct.DirectContext) (chunk : Direct.ChatChunk)
    (chunks : List Direct.ChatChunk) :
    w.streamed (chunk :: chunks) = (w.streamed [chunk]).streamed chunks := by
  simp [World.streamed, Direct.processStream]

theorem take_run (chunk : Direct.ChatChunk) (yielded : Option Raised)
    (w : World Direct.DirectContext) :
    (DirectRound.take ⟨.ok chunk, yielded⟩).run w =
      match yielded with
      | some e => (.error e, w.streamed [chunk])
      | none => (.ok (), w.streamed [chunk]) := by
  cases yielded <;> rfl

theorem directRounds_run (calls : DirectStreamCalls) (rounds : List DirectRound)
    (w : World Direct.DirectContext) :
    (calls.streamRounds rounds).run w =
      match loopRaised calls.exhausted rounds with
      | some e => (.error e, w.streamed (takenChunks rounds))
      | none => (.ok (), w.streamed (takenChunks rounds)) := by
  induction rounds generalizing w with
  | nil =>
    have same : w.streamed [] = w := by simp [World.streamed, Direct.processStream]
    rw [DirectStreamCalls.streamRounds, Py.run_callAll, loopRaised, takenChunks, same]
    cases calls.exhausted <;> rfl
  | cons round rest ih =>
    obtain ⟨received, yielded⟩ := round
    rw [DirectStreamCalls.streamRounds]
    cases received with
    | error e =>
      have same : w.streamed [] = w := by simp [World.streamed, Direct.processStream]
      rw [loopRaised, takenChunks, same]
      rfl
    | ok chunk =>
      cases yielded with
      | some e => rw [Py.run_bind, take_run, loopRaised, takenChunks]
      | none =>
        rw [Py.run_bind_ok (take_run chunk none w), loopRaised, takenChunks,
          World.streamed_cons w chunk (takenChunks rest)]
        exact ih _

/-- The stream of the direct pipeline stores once, after a loop nothing ended. -/
theorem directStream_handed (calls : DirectStreamCalls) (request : Request) :
    ((calls.processStream env).run (.initial request .initial)).2.handed =
      match loopRaised calls.exhausted calls.rounds with
      | some _ => []
      | none => [(createContext request).streamed calls.generated
          (Direct.processStream .initial (takenChunks calls.rounds)).2] := by
  let start : World Direct.DirectContext := .initial request .initial
  have loop := directRounds_run calls calls.rounds start
  unfold DirectStreamCalls.processStream
  cases raised : loopRaised calls.exhausted calls.rounds with
  | some e =>
    rw [raised] at loop
    rw [Py.run_tryExcept_error (Py.run_bind_error loop)]
    split_ifs <;> rfl
  | none =>
    rw [raised] at loop
    let w := start.streamed (takenChunks calls.rounds)
    let c := w.context.streamed calls.generated w.stream
    have stored : ((calls.finalizeStream env).run w).2.handed = [c] :=
      storeTrajectory_handed env { w with context := c }
    let I (w' : World Direct.DirectContext) : Prop := w'.handed = [c]
    have body : I ((do calls.streamRounds calls.rounds; calls.finalizeStream env).run start).2 := by
      rw [Py.run_bind_ok loop]
      exact stored
    exact Py.state_tryExcept body fun _ _ h => h

theorem directStream_sent (calls : DirectStreamCalls) (request : Request) :
    ((calls.processStream env).run (.initial request .initial)).2.sent =
      (takenChunks calls.rounds).map fun chunk => (Direct.stripChunk chunk).toItems := by
  let start : World Direct.DirectContext := .initial request .initial
  have sent : ∀ ctx (chunks : List Direct.ChatChunk),
      (Direct.processStream ctx chunks).1 = chunks.map Direct.stripChunk := by
    intro ctx chunks
    induction chunks generalizing ctx with
    | nil => rfl
    | cons chunk chunks ih => rw [Direct.processStream, ih, List.map_cons]
  have loopSent : (start.streamed (takenChunks calls.rounds)).sent =
      (takenChunks calls.rounds).map fun chunk => (Direct.stripChunk chunk).toItems := by
    simp [World.streamed, sent, start, World.initial]
  let I (w : World Direct.DirectContext) : Prop :=
    w.sent = (start.streamed (takenChunks calls.rounds)).sent
  have loop : I ((calls.streamRounds calls.rounds).run start).2 := by
    rw [directRounds_run]
    cases loopRaised calls.exhausted calls.rounds <;> rfl
  have finalize : Py.Keeps I (calls.finalizeStream env) := by
    intro w h
    change I ((storeTrajectory env).run _).2
    rw [storeTrajectory_run]
    cases env.insert w.handed.length <;> exact h
  rw [← loopSent]
  exact Py.state_tryExcept (Py.state_bind loop fun _ => finalize) fun _ _ h => h

end Direct

section Token

variable {calls : TokenStreamCalls π} {I : World (Pipeline.StreamContext π) → Prop}

theorem keeps_streamRounds (take : ∀ round, Py.Keeps I (calls.takeChunk round))
    (rounds : List TokenRound) : Py.Keeps I (calls.streamRounds rounds) := by
  induction rounds with
  | nil => exact Py.keeps_callAll _
  | cons round rest ih =>
    refine (take round).bind fun _ => Py.keeps_read.bind fun w => ?_
    split_ifs
    · exact Py.keeps_pure ()
    · exact ih

theorem keeps_receive (transform : Py.Keeps I (onContext (transformMessages calls.convert)))
    (encode : Py.Keeps I (onContext (encodeText calls.encode)))
    (take : ∀ round, Py.Keeps I (calls.takeChunk round)) : Py.Keeps I calls.receive :=
  transform.bind fun _ => encode.bind fun _ => (Py.keeps_callAll _).bind fun _ =>
    keeps_streamRounds take calls.rounds

theorem keeps_processStream (receive : Py.Keeps I calls.receive)
    (finalize : Py.Keeps I (calls.finalizeStream env)) (sendUsage : Py.Keeps I calls.sendUsage)
    (failed : ∀ e, Py.Keeps I (onContext (Py.modify (·.failed env e)))) :
    Py.Keeps I (calls.processStream env) :=
  (receive.bind fun _ => finalize.bind fun _ => sendUsage).tryCancelled
    ((finalize.tryExcept fun _ => Py.keeps_pure ()).bind fun _ => Py.keeps_raise _)
    fun e => (failed e).bind fun _ => Py.keeps_raise e

end Token

end TrajProxy.Record
