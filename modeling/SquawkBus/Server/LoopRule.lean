import SquawkBus.Server.Line
import SquawkBus.Server.OwnSession

/-!
# The rule of the loop

However deep a step of the loop goes, what it does to the connections goes through four calls:
`process_message`, `on_interrupt`, `on_open` and `on_close`. What relates the server to a summary of the
events, and has nothing to do with the handlers or the readers, is kept by every step of the loop as
soon as these calls keep it (`keeps_loopStep`).
-/

namespace SquawkBus.Server

open SquawkBus.Io SquawkBus.Messages

variable {ρ : Type} [RegexEngine ρ]

namespace ServerState

/-! ## Histories -/

/-- More has happened. -/
abbrev record (past : List ServerEvent) (event : ServerEvent) : List ServerEvent := past ++ [event]

theorem foldl_record (past events : List ServerEvent) : events.foldl record past = past ++ events := by
  induction events generalizing past with
  | nil => exact (List.append_nil past).symm
  | cons event events ih => rw [List.foldl_cons, ih, List.append_assoc, List.singleton_append]

variable {τ : Type} {note : τ → ServerEvent → τ} {inv : ServerState ρ → τ → Prop}
  {server : ServerState ρ}

/-! ## Calls of the hub -/

/-- The server when the hub has taken a step. -/
abbrev withHubStep (server : ServerState ρ) (step : HubStep ρ) : ServerState ρ :=
  { server with hub := (server.hub.step server.identify step).state }

/-- The rule for calls on the hub: what holds when its tables have changed, and is kept by the sending of
each of its messages, holds after it. -/
theorem keeps_onHub {step : HubStep ρ}
    (hhandlers : ∀ (s : ServerState ρ) handlers t, inv s t → inv { s with handlers } t)
    (hhub : ∀ t, inv server t → inv (server.withHubStep step) t)
    (hsent : ∀ i message interactor, .send i message ∈ (server.hub.step server.identify step).events →
      server.interactorAt i = some interactor → ∀ handlers t,
        inv { server.withHubStep step with handlers } t →
          inv { server.withHubStep step with handlers } (note t (.sent interactor.fd message))) :
    (server.onHub step).Keeps note inv server := by
  -- Only the handlers change from here on.
  let reached (s : ServerState ρ) (t : τ) : Prop :=
    (∃ handlers, s = { server.withHubStep step with handlers }) ∧ inv s t
  have hcall : ∀ call ∈ (server.hub.step server.identify step).events, ∀ s : ServerState ρ,
      (s.perform call).Keeps note reached s := by
    rintro call hmem s t ⟨⟨handlers, rfl⟩, hinv⟩
    unfold perform
    split
    · exact ⟨⟨handlers, rfl⟩, hinv⟩
    · next interactor hat =>
      cases call with
      | user _ =>
          simp only
          split <;> exact ⟨⟨handlers, rfl⟩, hinv⟩
      | send i message =>
          simp only [send]
          split
          · next buf _ =>
            have hnoted := hsent i message interactor hmem hat handlers t hinv
            rcases write_cases { server.withHubStep step with handlers } interactor.fd buf with
              heq | ⟨handler, -, heq⟩
            · rw [heq]
              exact ⟨⟨handlers, rfl⟩, hnoted⟩
            · rw [heq]
              exact ⟨⟨_, rfl⟩, hhandlers _ _ _ hnoted⟩
          · exact ⟨⟨handlers, rfl⟩, hinv⟩
      | str _ | host _ | id _ => exact ⟨⟨handlers, rfl⟩, hinv⟩
  have hreached : (server.onHub step).Keeps note reached (server.withHubStep step) := by
    unfold onHub
    refine (Outcome.keeps_forEach_of_mem hcall _).andThen ?_
    split
    · exact Outcome.keeps_done fun _ h => h
    · exact Outcome.keeps_fail (fun _ h => h) _
  exact fun t ht => (hreached t ⟨⟨server.handlers, rfl⟩, hhub t ht⟩).2

/-! ## The steps of the loop -/

section

variable (md5 : Bytes → Bytes)
  (hhandlers : ∀ (s : ServerState ρ) handlers t, inv s t → inv { s with handlers } t)
  (htake : ∀ (s : ServerState ρ) (fd : Fd) interactor reader t,
    s.interactors[fd]? = some interactor → inv s t →
      inv (s.withInteractor fd { interactor with reader }) t)
  (hprocess : ∀ (s : ServerState ρ) (fd : Fd) interactor message,
    s.interactors[fd]? = some interactor →
      (s.processMessage md5 fd interactor message).Keeps note inv s)

include htake hprocess

theorem keeps_receiveFrame (server : ServerState ρ) (fd : Fd) :
    (server.receiveFrame md5 fd).Keeps note inv server := by
  unfold receiveFrame
  split
  · exact Outcome.keeps_fail (fun _ h => h) _
  · next interactor hget =>
    split
    · exact Outcome.keeps_fail (fun _ h => h) _
    · next frame reader _ =>
      have htaken := fun t => htake server fd _ reader t hget
      simp only
      split
      · exact Outcome.keeps_fail htaken _
      · exact fun t ht => hprocess _ fd _ _ (server.get_withInteractor fd _) t (htaken t ht)

theorem keeps_receive (server : ServerState ρ) (fd : Fd) (buf : Bytes) :
    (server.receive md5 fd buf).Keeps note inv server := by
  unfold receive
  split
  · exact Outcome.keeps_fail (fun _ h => h) _
  · next interactor hget =>
    split
    · exact Outcome.keeps_fail (fun _ h => h) _
    · next reader _ =>
      intro t ht
      exact Outcome.keeps_forEach (fun _ s => keeps_receiveFrame md5 htake hprocess s fd) reader.frames
        _ t (htake server fd interactor reader t hget ht)

theorem keeps_onRead (server : ServerState ρ) (fd : Fd) (bufs : List Bytes) :
    (server.onRead md5 fd bufs).Keeps note inv server := by
  unfold onRead
  split
  · exact Outcome.keeps_done fun _ h => h
  · exact Outcome.keeps_forEach (fun buf s => keeps_receive md5 htake hprocess s fd buf) bufs server

include hhandlers

theorem keeps_handleEventRead (server : ServerState ρ) (event : PollEvent) (handler : SocketHandler) :
    (server.handleEventRead md5 event handler).1.Keeps note inv server := by
  unfold handleEventRead
  split
  · rw [handleRead_eq]
    intro t ht
    rw [catchStdException_state, catchStdException_events]
    unfold passOn
    split
    · exact hhandlers _ _ t ht
    · exact keeps_onRead md5 htake hprocess _ event.fd _ t (hhandlers _ _ t ht)
  · exact Outcome.keeps_done fun _ h => h

omit htake hprocess in
theorem keeps_handleEventWrite (server : ServerState ρ) (event : PollEvent) (canContinue : Bool) :
    (handleEventWrite event canContinue server).Keeps note inv server := by
  intro t ht
  rw [handleEventWrite_events]
  unfold handleEventWrite
  split
  · exact handleWrite_keeps (P := fun s => inv s t) ht fun _ _ => hhandlers _ _ t ht
  · exact ht

theorem keeps_handleEvent (server : ServerState ρ) (event : PollEvent)
    (hopen : ∀ client ∈ server.accepts (.event event),
      (server.onOpen client).Keeps note inv server) :
    (server.handleEvent md5 event).Keeps note inv server := by
  cases hget : server.handlers[event.fd]? with
  | none =>
      unfold handleEvent
      rw [hget]
      exact Outcome.keeps_fail (fun _ h => h) _
  | some handler =>
      cases handler with
      | listener isOpen =>
          unfold handleEvent
          rw [hget]
          simp only
          split
          · next hreadable =>
            split
            · exact Outcome.keeps_fail (fun _ h => h) _
            · next client haccept =>
              have haccepts : client ∈ server.accepts (.event event) := by
                simp [accepts, isListenerAt, hget, hreadable, haccept, Handler.isListener,
                  Except.toOption]
              exact fun t ht => hhandlers _ _ _ (hopen client haccepts t ht)
          · exact Outcome.keeps_done fun _ h => h
      | socket handler =>
          rw [handleEvent_of_socket md5 hget]
          exact (keeps_handleEventRead md5 hhandlers htake hprocess server event handler).andThen
            (keeps_handleEventWrite hhandlers _ event _)

omit htake hprocess in
theorem keeps_removeClosedHandler
    (hclose : ∀ (s : ServerState ρ) (fd : Fd), (s.onClose fd).Keeps note inv s)
    (server : ServerState ρ) (fd : Fd) :
    (server.removeClosedHandler fd).Keeps note inv server := by
  unfold removeClosedHandler
  split
  · exact Outcome.keeps_fail (fun _ h => h) _
  · simp only
    split
    · exact Outcome.keeps_done fun t ht => hhandlers _ _ t ht
    · exact fun t ht => hclose _ fd t (hhandlers _ _ t ht)

/-- **The rule of the loop.** -/
theorem keeps_loopStep {step : LoopStep ρ}
    (hinterrupt : ∀ configuration, step = .interrupt configuration →
      (server.onInterrupt configuration).Keeps note inv server)
    (hclose : ∀ (s : ServerState ρ) (fd : Fd), (s.onClose fd).Keeps note inv s)
    (hopen : ∀ client ∈ server.accepts step, (server.onOpen client).Keeps note inv server) :
    (server.loopStep md5 step).Keeps note inv server := by
  cases step with
  | interrupt configuration =>
      intro t ht
      rw [loopStep, handleInterrupt_state, handleInterrupt_events]
      exact hinterrupt configuration rfl t ht
  | event event => exact keeps_handleEvent md5 hhandlers htake hprocess server event hopen
  | sweep =>
      exact Outcome.keeps_forEach (fun fd s => keeps_removeClosedHandler hhandlers hclose s fd) _ server

end

end ServerState

end SquawkBus.Server
