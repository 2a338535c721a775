import Segmentation.Proofs.Preview.Rest
import Segmentation.Proofs.Preview.Settlement

/-!
# Loading requests will be heard of

A watcher leaves without publishing anything only if its call was aborted, and a call is
aborted only when its request is superseded, when its watcher gives up, or when the session
is given up.  As long as the session is kept, the watcher of the request that is loading is
therefore waiting for its call, or holds what it will publish.
-/

namespace Segmentation.Preview

/-! ### Calls that will be heard of -/

namespace Call

/-- The watcher of a call is going to publish what the request comes to. -/
inductive Pending (call : Call) : Prop
  | waits (h : call.watcher ≠ .done) (hkept : call.aborted = false)
  | holds {outcome : State} (h : call.watcher = .holding outcome)

variable {call : Call} {now timeout : Nat}

/-- A call that will be heard of and that nothing can happen to is waiting for its deadline. -/
theorem Pending.exists_deadline? (h : call.Pending) (hrest : call.ready? now = none) :
    ∃ deadline, call.watcher = .waiting deadline ∧ call.deadline? = some deadline ∧
      now < deadline := by
  rw [ready?] at hrest
  split at hrest
  · contradiction
  cases hwatcher : call.watcher with
  | waiting deadline =>
      rw [hwatcher] at hrest
      simp only at hrest
      split at hrest
      · contradiction
      next hwaits =>
        split at hrest
        · contradiction
        next hdue =>
          refine ⟨deadline, rfl, ?_, Nat.lt_of_not_le hdue⟩
          rw [deadline?, hwatcher]
          exact if_neg hwaits
  | done =>
      cases h with
      | waits h hkept => exact absurd hwatcher h
      | holds h =>
          rw [hwatcher] at h
          contradiction
  | _ =>
      rw [hwatcher] at hrest
      contradiction

theorem Pending.of_eq {after : Call} (h : call.Pending) (hwatcher : after.watcher = call.watcher)
    (haborted : after.aborted = call.aborted) : after.Pending := by
  cases h with
  | waits h hkept => exact .waits (hwatcher ▸ h) (haborted.trans hkept)
  | holds h => exact .holds (hwatcher.trans h)

theorem Pending.start (h : call.Pending) : call.start.Pending := by
  rw [Call.start]
  split
  · exact h.of_eq rfl rfl
  · exact h

theorem Pending.answer (h : call.Pending) (reply : Reply) : (call.answer reply).Pending := by
  rw [Call.answer]
  split
  · exact h.of_eq rfl rfl
  · exact h

theorem Pending.watch (h : call.Pending) : (call.watch now timeout).Pending := by
  rw [Call.watch]
  split
  · next hwatcher =>
      cases h with
      | waits h hkept => exact .waits (by simp) hkept
      | holds h =>
          rw [hwatcher] at h
          contradiction
  · exact h

theorem Pending.notice (h : call.Pending) : call.notice.Pending := by
  rw [Call.notice]
  split
  · exact .holds rfl
  · next hwatcher _ =>
      split
      · next haborted =>
          cases h with
          | waits h hkept =>
              rw [hkept] at haborted
              contradiction
          | holds h =>
              rw [hwatcher] at h
              contradiction
      · exact h
  · exact h

theorem Pending.expire (h : call.Pending) : (call.expire now timeout).Pending := by
  rw [Call.expire]
  split
  · split
    · exact .holds rfl
    · exact h
  · exact h

end Call

namespace Session

variable {session : Session} {event : Event} {events : List Event}

/-! ### Loading requests -/

/-- A request that is loading will be heard of. -/
def Expecting (session : Session) : Prop :=
  ∀ number query, session.state = .loading number query →
    ∃ call ∈ session.calls, call.request = number ∧ call.Pending

theorem Expecting.onCall (h : session.Expecting) (number : Nat) {change : Call → Call}
    (hmoves : ∀ call, Call.Moves session.now session.settings.timeout call (change call))
    (hchange : ∀ call, call.Pending → (change call).Pending) :
    (session.onCall number change).Expecting := by
  intro current query hstate
  obtain ⟨call, hcall, hnumber, hpending⟩ := h current query hstate
  refine ⟨_, List.mem_map.2 ⟨call, hcall, rfl⟩, ?_, ?_⟩
  · split
    · rw [(hmoves call).request, hnumber]
    · exact hnumber
  · split
    · exact hchange call hpending
    · exact hpending

/-- What is held of the request that is loading is published. -/
theorem commit_eq_self {number : Nat} {query : Sql.Query}
    (hstate : session.state = .loading number query)
    (hpublished : (session.commit number).published = session.published) :
    session.commit number = session := by
  rw [Session.commit] at hpublished ⊢
  cases hheld : (session.calls.find? fun call => call.request == number).bind Call.held? with
  | none => rfl
  | some outcome => simp [hheld, onCall, hstate, publish] at hpublished

/-- A commit that leaves a request loading is that of another request, or of none. -/
theorem Expecting.commit (h : session.Expecting) (horderly : session.Orderly) (number : Nat) :
    (session.commit number).Expecting := by
  intro current query hstate
  have hevent : ∀ definition, Event.commit number ≠ .request definition := nofun
  have hnone : session.Publishes (.commit number) [] := by
    apply horderly.publishes_nil hevent
    rw [Session.step, hstate]
    rfl
  have hbefore : session.state = .loading current query := hnone.state.symm.trans hstate
  obtain ⟨call, hcall, hcurrent, hpending⟩ := h current query hbefore
  by_cases hsame : current = number
  · subst hsame
    rw [commit_eq_self hbefore hnone.published]
    exact ⟨call, hcall, hcurrent, hpending⟩
  · obtain ⟨_, _, _, _, _, _, hloading, _⟩ | hcommit | hcommit := commit_cases session number
    · rw [hbefore] at hloading
      exact absurd (State.loading.inj hloading).1 hsame
    · rw [hcommit]
      refine ⟨call, List.mem_map.2 ⟨call, hcall, if_neg ?_⟩, hcurrent, hpending⟩
      rwa [hcurrent]
    · rw [hcommit]
      exact ⟨call, hcall, hcurrent, hpending⟩

theorem superseded_ne_loading (state : State) (number : Nat) (query : Sql.Query) :
    state.superseded ≠ .loading number query := by
  cases state <;> nofun

/-- What is expected stays expected as long as the session is not given up. -/
theorem Expecting.step (h : session.Expecting) (horderly : session.Orderly)
    (hevent : event ≠ .close) : (session.step event).Expecting := by
  cases event with
  | close => contradiction
  | request definition =>
      intro number query hstate
      rw [Session.step, request_eq] at hstate ⊢
      cases hresult : (session.copyQuery definition).1 with
      | error error =>
          rw [hresult] at hstate
          contradiction
      | ok query =>
          rw [hresult] at hstate
          injection hstate with hnumber hquery
          subst hnumber
          exact ⟨_, List.mem_append_right _ List.mem_cons_self, rfl, .waits (by simp) rfl⟩
  | cancel =>
      intro number query hstate
      rw [Session.step, supersede_eq] at hstate
      exact absurd hstate (superseded_ne_loading _ _ _)
  | copy definition =>
      rw [Session.step, copyQuery, prepare_snd]
      exact h
  | materialize definition =>
      rw [Session.step, materializeQuery, prepare_snd]
      exact h
  | start number => exact h.onCall number Call.moves_start fun _ hpending => hpending.start
  | answer number reply =>
      exact h.onCall number (Call.moves_answer reply) fun _ hpending => hpending.answer reply
  | watch number => exact h.onCall number Call.moves_watch fun _ hpending => hpending.watch
  | notice number => exact h.onCall number Call.moves_notice fun _ hpending => hpending.notice
  | expire number => exact h.onCall number Call.moves_expire fun _ hpending => hpending.expire
  | commit number => exact h.commit horderly number
  | advance milliseconds => exact h

theorem Expecting.run (h : session.Expecting) (horderly : session.Orderly)
    (hlive : .close ∉ events) : (session.run events).Expecting := by
  induction events generalizing session with
  | nil => exact h
  | cons event events ih =>
      have hevent : event ≠ .close := fun hclose => hlive (hclose ▸ List.mem_cons_self)
      exact ih (h.step horderly hevent) (horderly.step event) fun hmem =>
        hlive (List.mem_cons_of_mem _ hmem)

end Session

end Segmentation.Preview
