import ReliableService.Handlers.Effects
import ReliableService.Model.System
import ReliableService.Requests.Settling

/-!
# What travels between the broker and the copies

`perform` lets the broker handle an event and puts what it sends into the queues of the
copies.  On the side of the copies that only appends to the queues (`Performed`); which
copy gets what is up to the rings (`mem_inbox_of_targets`).
-/

namespace ReliableService.System

variable {nmr : UInt8} {κ : Type} [DecidableEq κ] {s s' : System nmr κ}

/-- The messages `sent` have been posted, tagged with `ask`. -/
structure Posted (ask : ℕ) (sent : List Output) (s s' : System nmr κ) : Prop where
  session_eq : s'.session = s.session
  server_eq : s'.server = s.server
  port_eq : s'.port = s.port
  outbox_eq : s'.outbox = s.outbox
  peers_eq : ∀ index, (s'.dealers index).peers = (s.dealers index).peers
  inbox : ∀ k, ∃ new, s'.inbox k = s.inbox k ++ new ∧ ∀ m ∈ new, m.ask = ask ∧
    ∃ index, Output.dealer index m.envelope m.sm ∈ sent

omit [DecidableEq κ] in
theorem posted_nil (ask : ℕ) (s : System nmr κ) : Posted ask [] s s where
  session_eq := rfl
  server_eq := rfl
  port_eq := rfl
  outbox_eq := rfl
  peers_eq _ := rfl
  inbox k := ⟨[], by simp⟩

/-- A message to a copy goes to the peer whose turn it is. -/
theorem post_dealer {ask index : ℕ} {envelope : ClientId} {sm : ServiceModule}
    (hready : (s.dealers index).Ready) :
    post ask s (.dealer index envelope sm) = { s with
      dealers := Function.update s.dealers index (s.dealers index).step
      inbox := Function.update s.inbox (s.dealers index).peers[(s.dealers index).cursor]
        (s.inbox (s.dealers index).peers[(s.dealers index).cursor] ++
          [⟨envelope, sm, ask⟩]) } := by
  simp only [post, Rotation.next_of_ready hready]

/-- It is dropped where there is none. -/
theorem post_dealer_of_not_ready {ask index : ℕ} {envelope : ClientId} {sm : ServiceModule}
    (hready : ¬ (s.dealers index).Ready) : post ask s (.dealer index envelope sm) = s := by
  simp only [post, Rotation.next_of_not_ready hready]

omit [DecidableEq κ] in
/-- More can have been sent than was posted. -/
theorem Posted.mono {ask : ℕ} {output : Output} {sent : List Output}
    (h : Posted ask sent s s') : Posted ask (output :: sent) s s' where
  session_eq := h.session_eq
  server_eq := h.server_eq
  port_eq := h.port_eq
  outbox_eq := h.outbox_eq
  peers_eq := h.peers_eq
  inbox k := by
    obtain ⟨new, hnew, hall⟩ := h.inbox k
    refine ⟨new, hnew, fun m hm => ?_⟩
    obtain ⟨hask, index, hmem⟩ := hall m hm
    exact ⟨hask, index, List.mem_cons_of_mem _ hmem⟩

theorem posted_cons {ask : ℕ} {output : Output} {sent : List Output}
    (h : Posted ask sent (post ask s output) s') : Posted ask (output :: sent) s s' := by
  cases output with
  | dealer index envelope sm =>
      by_cases hready : (s.dealers index).Ready
      · rw [post_dealer hready] at h
        refine ⟨h.session_eq, h.server_eq, h.port_eq, h.outbox_eq, ?_, ?_⟩
        · intro other
          rw [h.peers_eq]
          show (Function.update s.dealers index (s.dealers index).step other).peers = _
          by_cases hother : other = index
          · rw [hother, Function.update_self]
            rfl
          · rw [Function.update_of_ne hother]
        · intro k
          obtain ⟨new, hnew, hall⟩ := h.mono.inbox k
          by_cases hk : k = (s.dealers index).peers[(s.dealers index).cursor]
          · refine ⟨⟨envelope, sm, ask⟩ :: new, ?_, ?_⟩
            · rw [hnew, hk]
              simp
            · intro m hm
              rcases List.mem_cons.mp hm with rfl | hm
              · exact ⟨rfl, index, List.mem_cons_self⟩
              · exact hall m hm
          · exact ⟨new, by rw [hnew]; simp [hk], hall⟩
      · rw [post_dealer_of_not_ready hready] at h
        exact h.mono
  | router c response => exact Posted.mono h
  | reg port => exact Posted.mono h

theorem posted_foldl (ask : ℕ) (sent : List Output) (s : System nmr κ) :
    Posted ask sent s (sent.foldl (post ask) s) := by
  induction sent generalizing s with
  | nil => exact posted_nil ask s
  | cons output sent ih => exact posted_cons (ih (post ask s output))

/-- **The targets of a ring get the message.** -/
theorem mem_inbox_of_targets {ask index n : ℕ} {envelope : ClientId} {sm : ServiceModule} {k : κ}
    (hk : k ∈ (s.dealers index).targets n) : ⟨envelope, sm, ask⟩ ∈
      ((List.replicate n (Output.dealer index envelope sm)).foldl (post ask) s).inbox k := by
  induction n generalizing s with
  | zero => simp [Rotation.targets] at hk
  | succ n ih =>
      have hready : (s.dealers index).Ready := by
        by_contra hready
        rw [Rotation.targets_of_not_ready hready] at hk
        cases hk
      rw [Rotation.targets_succ hready] at hk
      rw [List.replicate_succ, List.foldl_cons, post_dealer hready]
      rcases List.mem_cons.mp hk with rfl | hk
      · obtain ⟨new, hnew, -⟩ := (posted_foldl ask (List.replicate n (.dealer index envelope sm)) _
          ).inbox (s.dealers index).peers[(s.dealers index).cursor]
        rw [hnew]
        simp
      · exact ih (by simpa using hk)

/-- A message leaves every ring valid. -/
theorem valid_post {ask : ℕ} (h : ∀ index, (s.dealers index).Valid) (output : Output)
    (index : ℕ) : ((post ask s output).dealers index).Valid := by
  cases output with
  | dealer used envelope sm =>
      by_cases hready : (s.dealers used).Ready
      · rw [post_dealer hready]
        show (Function.update s.dealers used (s.dealers used).step index).Valid
        by_cases hindex : index = used
        · rw [hindex, Function.update_self]
          exact Or.inr hready.step
        · rw [Function.update_of_ne hindex]
          exact h index
      · rw [post_dealer_of_not_ready hready]
        exact h index
  | router c response => exact h index
  | reg port => exact h index

theorem valid_foldl {ask : ℕ} {sent : List Output} (h : ∀ index, (s.dealers index).Valid)
    (index : ℕ) : ((sent.foldl (post ask) s).dealers index).Valid := by
  induction sent generalizing s with
  | nil => exact h index
  | cons output sent ih => exact ih (valid_post h output)

/-! ## One event -/

theorem perform_eq_some {event : Event} (h : s.perform event = some s') :
    s.session.step event = some s'.session ∧
      s' = (s.sends event).foldl (post s.session.ledger.asks.length)
        { s with session := s'.session } := by
  obtain ⟨session, hsession, hposts⟩ := Option.bind_eq_some_iff.mp h
  have hposted := posted_foldl s.session.ledger.asks.length (s.sends event)
    { s with session := session }
  rw [Option.some.inj hposts] at hposted
  obtain rfl : session = s'.session := hposted.session_eq.symm
  exact ⟨hsession, (Option.some.inj hposts).symm⟩

theorem valid_perform {event : Event} (h : ∀ index, (s.dealers index).Valid)
    (hperform : s.perform event = some s') (index : ℕ) : (s'.dealers index).Valid := by
  obtain ⟨-, hposts⟩ := perform_eq_some hperform
  rw [hposts]
  apply valid_foldl
  exact h

theorem valid_step {d : Deployment κ} {action : Action κ} (h : ∀ index, (s.dealers index).Valid)
    (hstep : s.step d action = some s') (index : ℕ) : (s'.dealers index).Valid := by
  cases action with
  | register k signature now =>
      simp only [System.step] at hstep
      split_ifs at hstep
      obtain ⟨t, hperform, hstep⟩ := Option.bind_eq_some_iff.mp hstep
      rw [← Option.some.inj hstep]
      exact valid_perform h hperform index
  | connect k joined =>
      simp only [System.step] at hstep
      split_ifs at hstep
      rw [← Option.some.inj hstep]
      show (Function.update s.dealers joined ((s.dealers joined).join k) index).Valid
      by_cases hindex : index = joined
      · rw [hindex, Function.update_self]
        exact (h joined).join k
      · rw [Function.update_of_ne hindex]
        exact h index
  | process k scratch flag =>
      simp only [System.step, processFirst] at hstep
      split at hstep
      · cases hstep
      · rw [← Option.some.inj hstep]
        exact h index
  | deliver k socket =>
      simp only [System.step] at hstep
      split at hstep
      · cases hstep
      · refine valid_perform ?_ hstep index
        exact h
  | request c request now later => exact valid_perform h hstep index
  | heartbeat i now later => exact valid_perform h hstep index
  | sweep now => exact valid_perform h hstep index

/-- The broker has handled an event. -/
structure Performed (event : Event) (s s' : System nmr κ) : Prop where
  session : s.session.step event = some s'.session
  posted : Posted s.session.ledger.asks.length (s.sends event) { s with session := s'.session } s'

theorem performed_of_some {event : Event} (h : s.perform event = some s') :
    Performed event s s' := by
  obtain ⟨hsession, hposts⟩ := perform_eq_some h
  have hposted := posted_foldl s.session.ledger.asks.length (s.sends event)
    { s with session := s'.session }
  rw [← hposts] at hposted
  exact ⟨hsession, hposted⟩

end ReliableService.System
