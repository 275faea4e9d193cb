import SquawkBus.Server.EventLoop
import SquawkBus.Server.Receive

/-!
# The answer to an authentication request

What a connection is told that is not authenticated yet. A request that is accepted sets the user
and is answered with a yes; one on which the password check throws ends the call. A request that is
refused is answered with a yes as well, and a message of another class is read through the null
pointer of a failed cast: neither branch returns after it has asked for the connection to be closed.
-/

namespace SquawkBus.Server

open SquawkBus.Io SquawkBus.Messages SquawkBus.Serialization

/-! ## The statement -/

variable {ρ : Type} [RegexEngine ρ]

/-- Somebody is told that it is authenticated. -/
def ServerEvent.isYes : ServerEvent → Bool
  | .sent _ message => message = .authenticationResponse ⟨true⟩
  | _ => false

namespace ServerState

variable (md5 : Bytes → Bytes)

/-- `AuthenticationManager::authenticate` accepts the message, as a request of the user. -/
def Accepts (server : ServerState ρ) (message : Message) (user : Bytes) : Prop :=
  ∃ request, message = .authenticationRequest request ∧
    server.authenticationManager.authenticate md5 request = .ok (some user)

/-- **An honest answer** to the message of a client that is not authenticated: one yes, and the user
set, where the message is accepted; no yes, no user, nothing for the hub and a proper end of the
call where it is not. -/
structure AnswersHonestly (server : ServerState ρ) (fd : Fd) (interactor : Interactor)
    (message : Message) : Prop where
  accepted : ∀ user, server.Accepts md5 message user →
    (server.processMessage md5 fd interactor message).state.interactors[fd]? =
      some { interactor with user := some user } ∧
    (server.processMessage md5 fd interactor message).events.filter (·.isYes) =
      [.sent fd (.authenticationResponse ⟨true⟩)]
  otherwise : (∀ user, ¬ server.Accepts md5 message user) →
    (server.processMessage md5 fd interactor message).events.filter (·.isYes) = [] ∧
    (server.processMessage md5 fd interactor message).state.interactors = server.interactors ∧
    (server.processMessage md5 fd interactor message).state.hub = server.hub ∧
    ∀ fault, (server.processMessage md5 fd interactor message).fault = some fault →
      ∃ e, fault = .thrown e

/-- The message is an authentication request, and is not refused: it is accepted, or the check of
the password throws. -/
def NotRefused (server : ServerState ρ) (message : Message) : Prop :=
  ∃ request, message = .authenticationRequest request ∧
    server.authenticationManager.authenticate md5 request ≠ .ok none

/-! ## When answers are honest -/

variable {server : ServerState ρ} {fd : Fd} {interactor : Interactor}

/-- **When the answer is honest.** -/
theorem answersHonestly_iff (hnone : interactor.user = none) (message : Message) :
    server.AnswersHonestly md5 fd interactor message ↔ server.NotRefused md5 message := by
  have hprocess : server.processMessage md5 fd interactor message = _ :=
    processMessage_of_none md5 hnone message
  rw [Outcome.andThen_of_ok rfl, Outcome.emit_state, Outcome.emit_events] at hprocess
  cases message with
  | authenticationRequest request =>
      cases hanswer : server.authenticationManager.authenticate md5 request with
      | error e =>
          rw [authenticate_error md5 hanswer] at hprocess
          refine ⟨fun _ => ⟨request, rfl, by simp [hanswer]⟩, fun _ => ⟨?_, fun _ => ?_⟩⟩
          · rintro user ⟨request', heq, haccepts⟩
            cases heq
            rw [hanswer] at haccepts
            cases haccepts
          · rw [hprocess]
            exact ⟨rfl, rfl, rfl, fun fault hfault => ⟨e, (Option.some.inj hfault).symm⟩⟩
      | ok answer =>
          cases answer with
          | some user =>
              rw [authenticate_some md5 hanswer] at hprocess
              refine ⟨fun _ => ⟨request, rfl, by simp [hanswer]⟩, fun _ => ⟨?_, fun hnot => ?_⟩⟩
              · rintro user' ⟨request', heq, haccepts⟩
                cases heq
                rw [hanswer] at haccepts
                cases haccepts
                rw [hprocess]
                exact ⟨by simp, rfl⟩
              · exact absurd ⟨request, rfl, hanswer⟩ (hnot user)
          | none =>
              -- The request is refused, and answered all the same.
              rw [authenticate_none md5 hanswer] at hprocess
              have hnot : ∀ user, ¬ server.Accepts md5 (.authenticationRequest request) user := by
                rintro user ⟨request', heq, haccepts⟩
                cases heq
                rw [hanswer] at haccepts
                cases haccepts
              constructor
              · intro h
                have hyes := (h.otherwise hnot).1
                rw [hprocess] at hyes
                cases hyes
              · rintro ⟨request', heq, hrefused⟩
                cases heq
                exact absurd hanswer hrefused
  | _ =>
      rw [authenticate_other md5 (by simp)] at hprocess
      constructor
      · intro h
        obtain ⟨e, he⟩ := (h.otherwise (by rintro user ⟨request, heq, -⟩; cases heq)).2.2.2
          .undefined (by rw [hprocess])
        cases he
      · rintro ⟨request, heq, -⟩
        cases heq

/-! ## Two newcomers -/

/-- A connection just accepted. -/
def newcomer : Interactor := ⟨100, 4, ascii "host", ascii "P", .empty, none⟩

theorem answersHonestly_login :
    newcomer.user = none ∧
      listening.AnswersHonestly zeroDigest 4 newcomer (.authenticationRequest ⟨ascii "none", []⟩) :=
  ⟨rfl, (answersHonestly_iff zeroDigest rfl _).mpr ⟨_, rfl, by decide⟩⟩

/-- A request with an unknown method is answered with a yes, and a message that is no request is
read through a null pointer. -/
theorem refused_and_answered_yes :
    ¬ listening.AnswersHonestly zeroDigest 4 newcomer (.authenticationRequest ⟨ascii "x", []⟩) ∧
    ¬ listening.AnswersHonestly zeroDigest 4 newcomer (.multicastData ⟨ascii "A", []⟩) := by
  constructor
  · intro h
    have hrefused : listening.authenticationManager.authenticate zeroDigest ⟨ascii "x", []⟩ =
        .ok none := by
      decide +kernel
    have hnot : ∀ user, ¬ listening.Accepts zeroDigest
        (.authenticationRequest ⟨ascii "x", []⟩) user := by
      rintro user ⟨request, heq, haccepts⟩
      cases heq
      rw [hrefused] at haccepts
      cases haccepts
    have hyes := (h.otherwise hnot).1
    revert hyes
    decide +kernel
  · intro h
    have hnot : ∀ user, ¬ listening.Accepts zeroDigest (.multicastData ⟨ascii "A", []⟩) user := by
      rintro user ⟨request, heq, -⟩
      cases heq
    obtain ⟨e, he⟩ := (h.otherwise hnot).2.2.2 .undefined (by decide +kernel)
    cases he

end ServerState

end SquawkBus.Server
