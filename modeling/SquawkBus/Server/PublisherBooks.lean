import SquawkBus.Server.Hub
import SquawkBus.Library.Run

/-!
# The books of the publisher manager

`topic_publishers_` and `publisher_topics_` are kept by three operations that know nothing of each
other. They are converses of each other in every state, with nothing empty in them, and this is what
makes a disconnect right: the topics it finds without publishers are those of which the interactor
was the only publisher, and their subscribers are told once each.
-/

namespace SquawkBus.Server

open SquawkBus.Messages

/-! ## Operations -/

variable {ρ : Type} [RegexEngine ρ]

/-- What is asked of a publisher manager, with the tables of the other parties as they are at the
time. -/
inductive PublisherOp (ρ : Type) [RegexEngine ρ] where
  | multicast (publisher : Ptr) (request : MulticastData) (subscriptions : SubscriptionManager)
  | unicast (publisher : Ptr) (request : UnicastData) (interactors : OrdMap Bytes Ptr)
  | closed (interactor : Ptr) (subscriptions : SubscriptionManager)
  | reload (file : Bytes → Except Exn (List (AuthorizationSpec ρ)))

namespace PublisherManager

/-- The manager after an operation. -/
def step (identify : Ptr → Identity) (pm : PublisherManager ρ) :
    PublisherOp ρ → PublisherManager ρ
  | .multicast publisher request sm => (onSendMulticast identify pm publisher request sm).1
  | .unicast publisher request interactors =>
      (onSendUnicast identify pm publisher request interactors).1
  | .closed interactor sm => (onInteractorClosed identify pm interactor sm).1
  | .reload file =>
      match pm.reloadAuthorizations file with
      | .ok pm => pm
      | .error _ => pm

/-- The manager after a run of operations. -/
def run (identify : Ptr → Identity) (am : AuthorizationManager ρ) (ops : List (PublisherOp ρ)) :
    PublisherManager ρ :=
  ops.foldl (step identify) (new am)

/-! ## The invariant -/

/-- **The books agree**: a publisher is filed under a topic when the topic is filed under the
publisher, and there is no empty entry on either side. -/
structure Agree (pm : PublisherManager ρ) : Prop where
  converse : ∀ t p, Index.Has pm.topicPublishers t p ↔ Index.Has pm.publisherTopics p t
  topics : Index.NoEmptyEntry pm.topicPublishers
  publishers : Index.NoEmptyEntry pm.publisherTopics

theorem agree_new (am : AuthorizationManager ρ) : (new am).Agree where
  converse t p := by simp [new]
  topics := Index.noEmptyEntry_empty
  publishers := Index.noEmptyEntry_empty

variable {pm pm' : PublisherManager ρ}

theorem Agree.sameBut (h : Agree pm) (hsame : SameBut pm pm') : Agree pm' where
  converse t p := by
    rw [hsame.topicPublishers, hsame.publisherTopics]
    exact h.converse t p
  topics := hsame.topicPublishers ▸ h.topics
  publishers := hsame.publisherTopics ▸ h.publishers

theorem Agree.addPublisher (h : Agree pm) (publisher : Ptr) (topic : Bytes) :
    Agree (pm.addPublisher publisher topic) where
  converse t p := by
    show Index.Has (Index.add _ _ _) _ _ ↔ Index.Has (Index.add _ _ _) _ _
    rw [Index.has_add, Index.has_add, h.converse, and_comm]
  topics := h.topics.add topic publisher
  publishers := h.publishers.add publisher topic

theorem Agree.close (h : Agree pm) (identify : Ptr → Identity) (interactor : Ptr)
    (sm : SubscriptionManager) : Agree (onInteractorClosed identify pm interactor sm).1 := by
  rcases onInteractorClosed_cases identify pm interactor sm with ⟨-, hnop⟩ |
    ⟨-, hpublishers, htopics, hnone, -⟩
  · rw [hnop]
    exact h
  · refine ⟨fun t p => ?_, hnone, ?_⟩
    · rw [htopics, hpublishers, Index.has_erase, h.converse]
    · rw [hpublishers]
      exact h.publishers.erase interactor

theorem Agree.step (h : Agree pm) (identify : Ptr → Identity) (op : PublisherOp ρ) :
    Agree (pm.step identify op) := by
  cases op with
  | multicast publisher request sm =>
      exact (h.addPublisher publisher request.topic).sameBut
        (sameBut_onSendMulticast identify pm publisher request sm)
  | unicast publisher request interactors =>
      show Agree (onSendUnicast identify pm publisher request interactors).1
      rcases onSendUnicast_cases identify pm publisher request interactors with hnop |
        ⟨receiver, -, hsame, -⟩ | ⟨receiver, packets, -, -, -, hsame, -⟩
      · rw [hnop]
        exact h
      · exact h.sameBut hsame
      · exact (h.addPublisher publisher request.topic).sameBut hsame
  | closed interactor sm => exact h.close identify interactor sm
  | reload file =>
      unfold PublisherManager.step
      simp only
      split
      · next hreload =>
        obtain ⟨am, -, rfl⟩ := reloadAuthorizations_ok hreload
        exact ⟨h.converse, h.topics, h.publishers⟩
      · exact h

theorem agree_run (identify : Ptr → Identity) (am : AuthorizationManager ρ)
    (ops : List (PublisherOp ρ)) : Agree (run identify am ops) := by
  have hok : Run.Meets (step identify) (fun _ _ => True) (new am) ops := fun _ _ _ => trivial
  exact Run.invariant (fun _ op h _ => h.step identify op) (agree_new am) hok

/-! ## A disconnect -/

/-- The publisher is the only one registered for the topic. -/
def SolePublisher (pm : PublisherManager ρ) (topic : Bytes) (publisher : Ptr) : Prop :=
  ∀ p, Index.Has pm.topicPublishers topic p ↔ p = publisher

/-- The message that says a publisher is gone. -/
def farewell (identify : Ptr → Identity) (publisher : Ptr) (topic : Bytes) : Message :=
  .forwardedMulticastData ⟨(identify publisher).user, (identify publisher).host, topic, []⟩

/-- The topics a disconnect finds without publishers are those that were the interactor's alone. -/
theorem Agree.mem_staleTopics_iff (h : Agree pm) {topic : Bytes} {publisher : Ptr} :
    topic ∈ pm.staleTopics publisher ↔ pm.SolePublisher topic publisher := by
  rw [mem_staleTopics]
  constructor
  · rintro ⟨publishers, hrow, honly⟩ p
    obtain ⟨p', hp'⟩ := h.topics topic publishers hrow
    rw [Index.has_of_entry hrow]
    refine ⟨fun hp => (honly p hp).symm, ?_⟩
    rintro rfl
    rw [honly p' hp']
    exact hp'
  · intro hsole
    obtain ⟨publishers, hrow, -⟩ := (hsole publisher).mpr rfl
    refine ⟨publishers, hrow, fun p hp => ?_⟩
    exact ((hsole p).mp ((Index.has_of_entry hrow).mpr hp)).symm

theorem nodup_staleTopics (pm : PublisherManager ρ) (interactor : Ptr) :
    (pm.staleTopics interactor).Nodup := by
  have hkeys : (pm.topicPublishers.toList.map Prod.fst).Nodup := by
    rw [Std.ExtTreeMap.map_fst_toList_eq_keys]
    exact Std.ExtTreeMap.nodup_keys
  exact hkeys.sublist (List.filter_sublist.map Prod.fst)

/-- The calls of a round that says farewell. -/
theorem mem_publisherGone {identify : Ptr → Identity} {interactor s : Ptr}
    {sm : SubscriptionManager} {topic : Bytes} {m : Message} :
    .send s m ∈ publisherGone identify interactor sm topic ↔
      s ∈ sm.findSubscribers topic ∧ m = farewell identify interactor topic := by
  unfold publisherGone
  simp only [← Std.ExtTreeSet.mem_toList]
  split
  · next hnone => simp [List.isEmpty_iff.mp hnone]
  · simp only [List.mem_append, List.mem_cons, reduceCtorEq, List.not_mem_nil, or_false,
      List.mem_map, Call.send.injEq, false_or]
    constructor
    · rintro ⟨s', hs', rfl, rfl⟩
      exact ⟨hs', rfl⟩
    · rintro ⟨hs, rfl⟩
      exact ⟨s, hs, rfl, rfl⟩

/-- A round says farewell to each subscriber once. -/
theorem count_publisherGone (identify : Ptr → Identity) {interactor s : Ptr}
    {sm : SubscriptionManager} {topic : Bytes} (hs : s ∈ sm.findSubscribers topic) :
    (publisherGone identify interactor sm topic).count
      (.send s (farewell identify interactor topic)) = 1 := by
  have hmem : .send s (farewell identify interactor topic) ∈
      publisherGone identify interactor sm topic := mem_publisherGone.mpr ⟨hs, rfl⟩
  refine List.count_eq_one_of_mem ?_ hmem
  have hnodup := OrdSet.nodup_toList (sm.findSubscribers topic)
  unfold publisherGone
  simp only
  split
  · exact List.nodup_nil
  · refine List.nodup_append.mpr ⟨by simp, hnodup.map fun s s' h => ?_, ?_⟩
    · exact (Call.send.injEq _ _ _ _ ▸ h).1
    · simp

/-! ## Runs -/

/-- **What a disconnect does**: the subscribers of the topics that were the interactor's alone are
told once each, nobody is told of another topic, and the interactor is in neither table. -/
structure TakesLeave (identify : Ptr → Identity) (pm : PublisherManager ρ) (interactor : Ptr)
    (sm : SubscriptionManager) : Prop where
  once : ∀ t s, pm.SolePublisher t interactor → s ∈ sm.findSubscribers t →
    (onInteractorClosed identify pm interactor sm).2.count
      (.send s (farewell identify interactor t)) = 1
  noOther : ∀ s m, .send s m ∈ (onInteractorClosed identify pm interactor sm).2 →
    ∃ t, pm.SolePublisher t interactor ∧ s ∈ sm.findSubscribers t ∧
      m = farewell identify interactor t
  topicPublishers : ∀ t,
    ¬ Index.Has (onInteractorClosed identify pm interactor sm).1.topicPublishers t interactor
  publisherTopics : interactor ∉ (onInteractorClosed identify pm interactor sm).1.publisherTopics

theorem Agree.takesLeave (h : Agree pm) (identify : Ptr → Identity) (interactor : Ptr)
    (sm : SubscriptionManager) : TakesLeave identify pm interactor sm := by
  have hagree := h.close identify interactor sm
  have hgone : interactor ∉ (onInteractorClosed identify pm interactor sm).1.publisherTopics := by
    rcases onInteractorClosed_cases identify pm interactor sm with ⟨hnone, hnop⟩ |
      ⟨-, hpublishers, -⟩
    · rw [hnop]
      simpa using hnone
    · rw [hpublishers]
      simp
  refine ⟨fun t s hsole hs => ?_, fun s m hm => ?_, fun t hhas => ?_, hgone⟩
  · obtain ⟨topics, hentry, -⟩ := (h.converse t interactor).mp ((hsole interactor).mpr rfl)
    rw [calls_closed hentry]
    have honly : ∀ t' ∈ pm.staleTopics interactor, t' ≠ t →
        Call.send s (farewell identify interactor t) ∉
          publisherGone identify interactor sm t' := by
      intro t' _ hne hmem
      have htopic := (mem_publisherGone.mp hmem).2
      simp only [farewell, Message.forwardedMulticastData.injEq,
        ForwardedMulticastData.mk.injEq] at htopic
      exact hne htopic.2.2.1.symm
    rw [List.count_flatMap_of_only (pm.nodup_staleTopics interactor) honly,
      if_pos (h.mem_staleTopics_iff.mpr hsole)]
    exact count_publisherGone identify hs
  · cases hentry : pm.publisherTopics[interactor]? with
    | none =>
        unfold onInteractorClosed at hm
        rw [hentry] at hm
        cases hm
    | some topics =>
        rw [calls_closed hentry] at hm
        obtain ⟨t, hstale, hround⟩ := List.mem_flatMap.mp hm
        obtain ⟨hs, rfl⟩ := mem_publisherGone.mp hround
        exact ⟨t, h.mem_staleTopics_iff.mp hstale, hs, rfl⟩
  · obtain ⟨topics, hentry, -⟩ := (hagree.converse t interactor).mp hhas
    exact hgone (OrdMap.mem_iff_get.mpr ⟨topics, hentry⟩)

/-- **The books are in order after every run**, and every disconnect takes leave of the right
subscribers, whatever publishes and disconnects came before. -/
theorem books_run (identify : Ptr → Identity) (am : AuthorizationManager ρ)
    (ops : List (PublisherOp ρ)) :
    Agree (run identify am ops) ∧
      ∀ interactor sm, TakesLeave identify (run identify am ops) interactor sm :=
  ⟨agree_run identify am ops, fun interactor sm =>
    (agree_run identify am ops).takesLeave identify interactor sm⟩

end PublisherManager

end SquawkBus.Server
