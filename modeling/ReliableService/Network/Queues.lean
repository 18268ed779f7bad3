import ReliableService.Model.Clients
import ReliableService.Model.System

/-!
# One copy and its queues

A copy answers a request at most once, although the broker may hand it the same request
several times: the messages of one request are sent together, so they arrive one after the
other, and after the answer the copy expects the next number.  `Closed` says that about a
request, `Spent` adds that the answer is not under way any more.

The one hole is the number `2 ^ 32 - 1`.  The next expected number is then `0`, which stands
for "no request yet", and a further message of the same request is answered again.

`CopyOk` is the invariant.  It speaks of one copy only, so every step of the system is one
of three here: the queue grows (`CopyOk.grow`), its first reply is taken (`CopyOk.take`), the
copy handles its first message (`CopyOk.receive`).
-/

namespace ReliableService

namespace Server

/-- The three ways in which a copy handles a message. -/
theorem receive_cases (server : Server) (sm : ServiceModule) :
    sm.heartbeat = true ∧ (server.receive sm).2 = .pong ∧
        (server.receive sm).1.requestId = server.requestId ∨
      sm.heartbeat = false ∧ (server.receive sm).2 = .answer ∧
        (server.receive sm).1.requestId = sm.seqId + 1 ∧
        (server.requestId = 0 ∨ server.requestId = sm.seqId) ∨
      sm.heartbeat = false ∧ (server.receive sm).2 = .duplicated ∧
        (server.receive sm).1.requestId = server.requestId := by
  unfold receive
  by_cases hping : sm.heartbeat = true
  · exact Or.inl ⟨hping, by rw [if_pos hping], by rw [if_pos hping]⟩
  · rw [if_neg hping]
    rw [Bool.not_eq_true] at hping
    dsimp only
    by_cases hzero : server.requestId = 0
    · rw [if_pos hzero, if_pos rfl]
      exact Or.inr (Or.inl ⟨hping, rfl, rfl, Or.inl hzero⟩)
    · rw [if_neg hzero]
      by_cases hseq : sm.seqId = server.requestId
      · rw [if_pos hseq]
        exact Or.inr (Or.inl ⟨hping, rfl, by rw [hseq], Or.inr hseq.symm⟩)
      · rw [if_neg hseq]
        exact Or.inr (Or.inr ⟨hping, rfl, rfl⟩)

end Server

/-- A forwarded request, as opposed to a ping. -/
def Delivery.IsRequest (m : Delivery) : Prop := m.sm.heartbeat = false

instance Delivery.decidableIsRequest (m : Delivery) : Decidable m.IsRequest :=
  inferInstanceAs (Decidable (_ = _))

/-- A reply that carries a result. -/
def Answer.Plain (a : Answer) : Prop := a.reply.heartbeat = false ∧ a.reply.duplicated = false

instance Answer.decidablePlain (a : Answer) : Decidable a.Plain :=
  inferInstanceAs (Decidable (_ ∧ _))

section Copy

variable {κ : Type} {d : Deployment κ} {k : κ} {asks : List Ask} {server : Server}
  {inbox rest new : List Delivery} {outbox : List Answer} {m : Delivery} {n : ℕ}

/-- The copy will not answer request `n` any more. -/
def Closed (server : Server) (inbox : List Delivery) (n : ℕ) : Prop :=
  ∀ m ∈ inbox, m.IsRequest → n ≤ m.ask ∧
    (m.ask = n → server.requestId = m.sm.seqId + 1 ∧ server.requestId ≠ 0)

/-- The copy has no answer to request `n` under way and will not give one. -/
def Spent (server : Server) (inbox : List Delivery) (outbox : List Answer) (n : ℕ) : Prop :=
  Closed server inbox n ∧ ∀ a ∈ outbox, a.Plain → a.ask ≠ n

/-- The messages of one request are together, they say what the client asked, and the
copy has answered each request at most once. -/
structure CopyOk (d : Deployment κ) (k : κ) (asks : List Ask) (server : Server)
    (inbox : List Delivery) (outbox : List Answer) : Prop where
  sorted : inbox.Pairwise fun m m' => m.IsRequest → m'.IsRequest → m.ask ≤ m'.ask
  genuine : ∀ m ∈ inbox, m.IsRequest → ∃ ask, asks[m.ask]? = some ask ∧
    m.sm.parameters = some ask.request.parameters
  same_seq : ∀ m ∈ inbox, ∀ m' ∈ inbox, m.IsRequest → m'.IsRequest → m.ask = m'.ask →
    m.sm.seqId = m'.sm.seqId
  honest : ∀ a ∈ outbox, a.Plain → ∃ ask, asks[a.ask]? = some ask ∧
    a.reply.service = d.service k ∧
    (k ∉ d.faulty → a.reply.result = d.body (d.service k) ask.request.parameters)
  closed : ∀ a ∈ outbox, a.Plain → Closed server inbox a.ask
  once : outbox.Pairwise fun a a' => a.Plain → a'.Plain → a.ask ≠ a'.ask

theorem copyOk_init (d : Deployment κ) (k : κ) (asks : List Ask) :
    CopyOk d k asks Server.init [] [] := by
  constructor <;> simp

theorem CopyOk.sorted_head (h : CopyOk d k asks server (m :: rest) outbox) :
    ∀ m' ∈ rest, m.IsRequest → m'.IsRequest → m.ask ≤ m'.ask :=
  (List.pairwise_cons.mp h.sorted).1

/-! ## The queue grows -/

/-- What the broker may append to the queue of a copy: pings, and messages of one request
that is younger than all others. -/
structure Fresh (asks asks' : List Ask) (new : List Delivery) : Prop where
  asks_mono : ∀ (n : ℕ) ask, asks[n]? = some ask → asks'[n]? = some ask
  youngest : ∀ m ∈ new, m.IsRequest → m.ask = asks.length
  genuine : ∀ m ∈ new, m.IsRequest → ∃ ask, asks'[m.ask]? = some ask ∧
    m.sm.parameters = some ask.request.parameters
  same_seq : ∀ m ∈ new, ∀ m' ∈ new, m.IsRequest → m'.IsRequest → m.sm.seqId = m'.sm.seqId

theorem Closed.grow {asks' : List Ask} (h : Closed server inbox n) (hfresh : Fresh asks asks' new)
    (hn : n < asks.length) : Closed server (inbox ++ new) n := by
  intro m hm hrequest
  rcases List.mem_append.mp hm with hm | hm
  · exact h m hm hrequest
  · have hask := hfresh.youngest m hm hrequest
    exact ⟨by omega, fun heq => by omega⟩

theorem Spent.grow {asks' : List Ask} (h : Spent server inbox outbox n)
    (hfresh : Fresh asks asks' new) (hn : n < asks.length) :
    Spent server (inbox ++ new) outbox n :=
  ⟨h.1.grow hfresh hn, h.2⟩

theorem CopyOk.grow {asks' : List Ask} (h : CopyOk d k asks server inbox outbox)
    (hfresh : Fresh asks asks' new) : CopyOk d k asks' server (inbox ++ new) outbox where
  sorted := by
    refine List.pairwise_append.mpr ⟨h.sorted, ?_, ?_⟩
    · refine List.Pairwise.imp_of_mem ?_ (List.pairwise_of_forall (fun _ _ => trivial))
      intro m m' hm hm' _ hrequest hrequest'
      rw [hfresh.youngest m hm hrequest, hfresh.youngest m' hm' hrequest']
    · intro m hm m' hm' hrequest hrequest'
      obtain ⟨ask, hask, -⟩ := h.genuine m hm hrequest
      rw [hfresh.youngest m' hm' hrequest']
      exact (List.getElem?_eq_some_iff.mp hask).1.le
  genuine m hm hrequest := by
    rcases List.mem_append.mp hm with hm | hm
    · obtain ⟨ask, hask, hparameters⟩ := h.genuine m hm hrequest
      exact ⟨ask, hfresh.asks_mono _ ask hask, hparameters⟩
    · exact hfresh.genuine m hm hrequest
  same_seq m hm m' hm' hrequest hrequest' heq := by
    have hold : ∀ m ∈ inbox, m.IsRequest → m.ask < asks.length := fun m hm hrequest => by
      obtain ⟨ask, hask, -⟩ := h.genuine m hm hrequest
      exact (List.getElem?_eq_some_iff.mp hask).1
    rcases List.mem_append.mp hm with hm | hm <;> rcases List.mem_append.mp hm' with hm' | hm'
    · exact h.same_seq m hm m' hm' hrequest hrequest' heq
    · have := hold m hm hrequest
      have := hfresh.youngest m' hm' hrequest'
      omega
    · have := hold m' hm' hrequest'
      have := hfresh.youngest m hm hrequest
      omega
    · exact hfresh.same_seq m hm m' hm' hrequest hrequest'
  honest a ha hplain := by
    obtain ⟨ask, hask, hrest⟩ := h.honest a ha hplain
    exact ⟨ask, hfresh.asks_mono _ ask hask, hrest⟩
  closed a ha hplain := by
    obtain ⟨ask, hask, -⟩ := h.honest a ha hplain
    exact (h.closed a ha hplain).grow hfresh (List.getElem?_eq_some_iff.mp hask).1
  once := h.once

/-! ## A reply is taken -/

variable {a : Answer} {later : List Answer}

theorem CopyOk.take (h : CopyOk d k asks server inbox (a :: later)) :
    CopyOk d k asks server inbox later where
  sorted := h.sorted
  genuine := h.genuine
  same_seq := h.same_seq
  honest a' ha' := h.honest a' (List.mem_cons_of_mem a ha')
  closed a' ha' := h.closed a' (List.mem_cons_of_mem a ha')
  once := (List.pairwise_cons.mp h.once).2

theorem Spent.take (h : Spent server inbox (a :: later) n) : Spent server inbox later n :=
  ⟨h.1, fun a' ha' => h.2 a' (List.mem_cons_of_mem a ha')⟩

/-- The request of a plain reply that is taken is spent. -/
theorem CopyOk.spent_of_take (h : CopyOk d k asks server inbox (a :: later)) (hplain : a.Plain) :
    Spent server inbox later a.ask :=
  ⟨h.closed a List.mem_cons_self hplain, fun a' ha' hplain' =>
    Ne.symm ((List.pairwise_cons.mp h.once).1 a' ha' hplain hplain')⟩

/-! ## The copy handles a message -/

/-- A closed request stays closed, and it is not the one that is answered. -/
theorem Closed.receive (h : Closed server (m :: rest) n)
    (hsorted : ∀ m' ∈ rest, m.IsRequest → m'.IsRequest → m.ask ≤ m'.ask) :
    Closed (server.receive m.sm).1 rest n ∧ ((server.receive m.sm).2 = .answer → m.ask ≠ n) := by
  have hrest : ∀ m' ∈ rest, m'.IsRequest → _ := fun m' hm' => h m' (List.mem_cons_of_mem m hm')
  rcases server.receive_cases m.sm with ⟨-, hreaction, hid⟩ |
      ⟨hrequest, hreaction, hid, hexpected⟩ | ⟨-, hreaction, hid⟩
  · refine ⟨?_, fun hanswer => by simp [hreaction] at hanswer⟩
    intro m' hm' hrequest'
    rw [hid]
    exact hrest m' hm' hrequest'
  · -- an answer means that the copy still expected this request
    obtain ⟨hle, hdone⟩ := h m List.mem_cons_self hrequest
    have hne : m.ask ≠ n := by
      intro heq
      obtain ⟨hnext, hnonzero⟩ := hdone heq
      rcases hexpected with hzero | hseq
      · exact hnonzero hzero
      · rw [hseq] at hnext
        exact absurd hnext (by simp)
    refine ⟨?_, fun _ => hne⟩
    intro m' hm' hrequest'
    have hlater := hsorted m' hm' hrequest hrequest'
    exact ⟨by omega, fun heq => by omega⟩
  · refine ⟨?_, fun hanswer => by simp [hreaction] at hanswer⟩
    intro m' hm' hrequest'
    rw [hid]
    exact hrest m' hm' hrequest'

/-- An answer is to a request, and closes it: the copy now expects the next number.  The
hypothesis excludes the last sequence number while the same request is still in the queue. -/
theorem CopyOk.closed_of_answer (h : CopyOk d k asks server (m :: rest) outbox)
    (hlast : m.IsRequest → m.sm.seqId = -1 → ∀ m' ∈ rest, m'.IsRequest → m'.ask ≠ m.ask)
    (hanswer : (server.receive m.sm).2 = .answer) :
    m.IsRequest ∧ Closed (server.receive m.sm).1 rest m.ask := by
  rcases server.receive_cases m.sm with ⟨-, hpong, -⟩ | ⟨hrequest, -, hid, -⟩ | ⟨-, hdup, -⟩
  · simp [hpong] at hanswer
  · refine ⟨hrequest, ?_⟩
    intro m' hm' hrequest'
    refine ⟨h.sorted_head m' hm' hrequest hrequest', ?_⟩
    intro heq
    have hseq := h.same_seq m List.mem_cons_self m' (List.mem_cons_of_mem m hm') hrequest
      hrequest' heq.symm
    rw [hid, hseq]
    refine ⟨rfl, ?_⟩
    intro hzero
    apply hlast hrequest ?_ m' hm' hrequest' heq
    rw [hseq, ← UInt32.add_left_inj 1, hzero]
    rfl
  · simp [hdup] at hanswer

variable [DecidableEq κ]

/-- Only an answer is a plain reply. -/
theorem plain_reply_iff {scratch : Int32} {flag : Bool} {reaction : Reaction} {sm : ServiceModule}
    (envelope : ClientId) :
    (⟨envelope, d.reply k sm scratch flag reaction, n⟩ : Answer).Plain ↔ reaction = .answer := by
  cases reaction <;> simp [Answer.Plain, Deployment.reply]

theorem Spent.receive (h : Spent server (m :: rest) outbox n)
    (hsorted : ∀ m' ∈ rest, m.IsRequest → m'.IsRequest → m.ask ≤ m'.ask) (scratch : Int32)
    (flag : Bool) : Spent (server.receive m.sm).1 rest
      (outbox ++ [⟨m.envelope, d.reply k m.sm scratch flag (server.receive m.sm).2, m.ask⟩]) n := by
  obtain ⟨hclosed, hanswer⟩ := h.1.receive hsorted
  refine ⟨hclosed, ?_⟩
  intro a ha hplain
  rcases List.mem_append.mp ha with ha | ha
  · exact h.2 a ha hplain
  · rw [List.mem_singleton.mp ha] at hplain ⊢
    exact hanswer ((plain_reply_iff m.envelope).mp hplain)

/-- **A copy handles a message.** -/
theorem CopyOk.receive (h : CopyOk d k asks server (m :: rest) outbox)
    (hlast : m.IsRequest → m.sm.seqId = -1 → ∀ m' ∈ rest, m'.IsRequest → m'.ask ≠ m.ask)
    (scratch : Int32) (flag : Bool) :
    CopyOk d k asks (server.receive m.sm).1 rest
      (outbox ++ [⟨m.envelope, d.reply k m.sm scratch flag (server.receive m.sm).2, m.ask⟩]) := by
  have hsorted := h.sorted_head
  have hold : ∀ a ∈ outbox, a.Plain → Closed (server.receive m.sm).1 rest a.ask ∧
      ((server.receive m.sm).2 = .answer → m.ask ≠ a.ask) := fun a ha hplain =>
    (h.closed a ha hplain).receive hsorted
  have hanswer : (server.receive m.sm).2 = .answer →
      m.IsRequest ∧ Closed (server.receive m.sm).1 rest m.ask := h.closed_of_answer hlast
  have hnew : ∀ a ∈ outbox ++
      [⟨m.envelope, d.reply k m.sm scratch flag (server.receive m.sm).2, m.ask⟩], a.Plain →
        a ∈ outbox ∨ (server.receive m.sm).2 = .answer ∧
          a = ⟨m.envelope, d.reply k m.sm scratch flag .answer, m.ask⟩ := by
    intro a ha hplain
    rcases List.mem_append.mp ha with ha | ha
    · exact Or.inl ha
    · rw [List.mem_singleton.mp ha] at hplain ⊢
      have hreaction := (plain_reply_iff m.envelope).mp hplain
      exact Or.inr ⟨hreaction, by rw [hreaction]⟩
  refine ⟨(List.pairwise_cons.mp h.sorted).2,
    fun m' hm' => h.genuine m' (List.mem_cons_of_mem m hm'),
    fun m' hm' m'' hm'' => h.same_seq m' (List.mem_cons_of_mem m hm') m''
      (List.mem_cons_of_mem m hm''), ?_, ?_, ?_⟩
  · intro a ha hplain
    rcases hnew a ha hplain with ha | ⟨hreaction, rfl⟩
    · exact h.honest a ha hplain
    · obtain ⟨ask, hask, hparameters⟩ := h.genuine m List.mem_cons_self (hanswer hreaction).1
      refine ⟨ask, hask, rfl, ?_⟩
      intro hhonest
      simp only [Deployment.reply, if_neg hhonest, hparameters, Option.getD_some]
  · intro a ha hplain
    rcases hnew a ha hplain with ha | ⟨hreaction, rfl⟩
    · exact (hold a ha hplain).1
    · exact (hanswer hreaction).2
  · refine List.pairwise_append.mpr ⟨h.once, List.pairwise_singleton _ _, ?_⟩
    intro a ha a' ha' hplain hplain'
    rw [List.mem_singleton.mp ha'] at hplain' ⊢
    exact Ne.symm ((hold a ha hplain).2 ((plain_reply_iff m.envelope).mp hplain'))

end Copy

end ReliableService
