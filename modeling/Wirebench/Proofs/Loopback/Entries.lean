import Wirebench.Proofs.Loopback.Ownership
import Wirebench.Proofs.Loopback.Steps

namespace Wirebench.Loopback

/-- The task of a distributor that goes on: only a new peer is handed over in two steps. -/
def Stage.Fits (stage : Stage) (task : Task) : Prop :=
  match stage with
  | .resting => True
  | .reserved => task.newcomer? ≠ none
  | .received .. | .unknown .. | .entering .. | .roused | .leaving => task = .idle

theorem Stage.fits_of_resting {stage : Stage} (h : stage = .resting) (task : Task) :
    stage.Fits task := by
  rw [h]
  trivial

/-- A datagram is forwarded where the distributor waits. -/
theorem Stage.Fits.resting {stage : Stage} {p : Nat} {d : Datagram}
    (h : stage.Fits (.forwarding p d)) : stage = .resting := by
  cases stage with
  | resting => rfl
  | reserved => exact (h rfl).elim
  | received | unknown | entering | roused | leaving => cases h

namespace Interleaving

variable {t t' : Interleaving} {s : SharedSocket} {a b : SocketAddress} {p q : Nat} {d : Datagram}
variable {party : Party} {x : Step}

/-- A step makes a peer for an address. -/
def Makes (t : Interleaving) (x : Step) (a : SocketAddress) : Prop :=
  (t.act x).socket.LivesAt t.socket.peers.length a

/-- The table has no entry for the address, nobody is going to strike it, and the distributor has no
datagram in hand for a peer that had it. -/
structure Vacant (t : Interleaving) (a : SocketAddress) : Prop where
  entry : t.socket.peerFor? a = none
  strikes : ∀ party, (party, a) ∉ t.strikes
  hand : ∀ p d, t.socket.task = .forwarding p d → ∀ live, t.socket.status? p ≠ some (a, live)

/-- Peers are made only for vacant addresses. -/
def Careful (t : Interleaving) : List Step → Prop
  | [] => True
  | x :: schedule => (∀ a, t.Makes x a → t.Vacant a) ∧ (t.act x).Careful schedule

/-- Every live peer owns its entry, and what is in progress does not take it away. -/
structure Orderly (t : Interleaving) : Prop where
  owned : ∀ p a, t.socket.LivesAt p a → t.socket.peerFor? a = some p
  entry : ∀ a p, t.socket.peerFor? a = some p →
    ∃ live, t.socket.status? p = some (a, live) ∧
      (live = true ∨ ∃ party, (party, a) ∈ t.strikes)
  strikes : ∀ party a p, (party, a) ∈ t.strikes → ¬t.socket.LivesAt p a
  hand : ∀ p d, t.socket.task = .forwarding p d →
    ∃ a live, t.socket.status? p = some (a, live) ∧ ∀ q, t.socket.LivesAt q a → q = p
  newcomer : ∀ p, t.socket.task.newcomer? = some p →
    p ∉ t.socket.waiting ∧ ∃ a, t.socket.LivesAt p a
  waiting : ∀ p ∈ t.socket.waiting, t.socket.status? p ≠ none
  busy : t.stage.Fits t.socket.task
  striking : ∀ a, (.distributor, a) ∈ t.strikes →
    t.socket.task = .idle ∨ t.socket.task = .stopped

theorem notMem_of_isStriking (h : ¬t.isStriking party = true) (a : SocketAddress) :
    (party, a) ∉ t.strikes := by
  intro hin
  exact h (List.any_eq_true.2 ⟨(party, a), hin, decide_eq_true rfl⟩)

namespace Orderly

theorem start : Orderly {} where
  owned := nofun
  entry := nofun
  strikes := nofun
  hand := nofun
  newcomer := nofun
  waiting := nofun
  busy := trivial
  striking := nofun

theorem of_same (h : t.Orderly) (hentry : ∀ a, t'.socket.peerFor? a = t.socket.peerFor? a)
    (hstatus : ∀ p, t'.socket.status? p = t.socket.status? p) (hstrikes : t'.strikes = t.strikes)
    (hwaiting : ∀ p ∈ t'.socket.waiting, p ∈ t.socket.waiting)
    (htask : t'.socket.task = t.socket.task ∨ t'.socket.task = .idle ∨ t'.socket.task = .stopped)
    (hbusy : t'.stage.Fits t'.socket.task) : t'.Orderly where
  owned p a hl := by
    rw [SharedSocket.LivesAt, hstatus] at hl
    exact (hentry a).trans (h.owned p a hl)
  entry a p hp := by
    rw [hentry] at hp
    rw [hstatus, hstrikes]
    exact h.entry a p hp
  strikes party a p hin hl := by
    rw [hstrikes] at hin
    rw [SharedSocket.LivesAt, hstatus] at hl
    exact h.strikes party a p hin hl
  hand p d hp := by
    rcases htask with ht | ht | ht
    · obtain ⟨a, live, ha, hunique⟩ := h.hand p d (ht ▸ hp)
      have hunique' (q : Nat) (hl : t'.socket.LivesAt q a) : q = p := by
        rw [SharedSocket.LivesAt, hstatus] at hl
        exact hunique q hl
      exact ⟨a, live, (hstatus p).trans ha, hunique'⟩
    · cases ht.symm.trans hp
    · cases ht.symm.trans hp
  newcomer p hp := by
    rcases htask with ht | ht | ht
    · rw [ht] at hp
      obtain ⟨hout, a, ha⟩ := h.newcomer p hp
      exact ⟨fun hin => hout (hwaiting p hin), a, (hstatus p).trans ha⟩
    · rw [ht] at hp
      cases hp
    · rw [ht] at hp
      cases hp
  waiting p hp := by
    rw [hstatus]
    exact h.waiting p (hwaiting p hp)
  busy := hbusy
  striking a hin := by
    rw [hstrikes] at hin
    rcases htask with ht | ht
    · exact ht ▸ h.striking a hin
    · exact ht

theorem ite {c : Prop} [Decidable c] (h : t.Orderly) (hc : c → t'.Orderly) :
    (if c then t' else t).Orderly := by
  split
  · next hyes => exact hc hyes
  · exact h

theorem unique (h : t.Orderly) (hp : t.socket.LivesAt p a) (hq : t.socket.LivesAt q a) : p = q :=
  Option.some.inj ((h.owned p a hp).symm.trans (h.owned q a hq))

theorem isOwned (h : t.Orderly) : t.socket.Owned where
  entry := h.owned
  unique _ _ _ := h.unique
  reached p a d hp := by
    rw [SharedSocket.take_known (h.owned p a hp)]

theorem withStage (h : t.Orderly) {stage : Stage} (hfits : stage.Fits t.socket.task) :
    Orderly { t with stage } :=
  h.of_same (fun _ => rfl) (fun _ => rfl) rfl (fun _ => id) (.inl rfl) hfits

theorem stop (h : t.Orderly) :
    Orderly { t with socket := { t.socket with task := .stopped }, stage := .resting } :=
  h.of_same (fun _ => rfl) (fun _ => rfl) rfl (fun _ => id) (.inr (.inr rfl)) trivial

theorem forwarding (h : t.Orderly) (hfree : ¬t.isStriking .distributor = true) {live : Bool}
    (ha : t.socket.status? p = some (a, live)) (hunique : ∀ q, t.socket.LivesAt q a → q = p)
    (d : Datagram) :
    Orderly { t with socket := { t.socket with task := .forwarding p d }, stage := .resting } where
  owned := h.owned
  entry := h.entry
  strikes := h.strikes
  hand q _ hq := by
    cases hq
    exact ⟨a, live, ha, hunique⟩
  newcomer := nofun
  waiting := h.waiting
  busy := trivial
  striking b hin := (notMem_of_isStriking hfree b hin).elim

/-- Whose queue is closed is not live any more, and its address is going to be struck. -/
theorem hangUp (h : t.Orderly) (hp : t.socket.task.newcomer? ≠ some p)
    (hparty : party = .distributor → t.socket.task = .idle ∨ t.socket.task = .stopped) :
    (t.hangUp party p).Orderly := by
  rw [Interleaving.hangUp]
  split
  case h_2 => exact h
  case h_3 => exact h
  case h_1 a hstatus =>
    have hothers {q : Nat} {b : SocketAddress} (hl : (t.socket.hangUp p).LivesAt q b) :
        t.socket.LivesAt q b ∧ q ≠ p := SharedSocket.livesAt_hangUp.1 hl
    constructor
    case owned => exact fun q b hl => h.owned q b (hothers hl).1
    case entry =>
      intro b q hq
      obtain ⟨live, hb, hwhy⟩ := h.entry b q hq
      by_cases hqp : q = p
      · subst hqp
        cases hb.symm.trans hstatus
        refine ⟨false, ?_, .inr ⟨party, List.mem_cons_self⟩⟩
        rw [SharedSocket.status?_hangUp, if_pos rfl, hstatus]
        rfl
      · refine ⟨live, ?_, hwhy.imp_right ?_⟩
        · rw [SharedSocket.status?_hangUp, if_neg hqp, hb]
        · exact fun ⟨party', hin⟩ => ⟨party', List.mem_cons_of_mem _ hin⟩
    case strikes =>
      intro party' b q hin hl
      rcases List.mem_cons.1 hin with heq | hin
      · cases heq
        exact (hothers hl).2 (h.unique (hothers hl).1 hstatus)
      · exact h.strikes party' b q hin (hothers hl).1
    case hand =>
      intro q d hq
      obtain ⟨b, live, hb, hunique⟩ := h.hand q d hq
      obtain ⟨live', hlive'⟩ := SharedSocket.exists_status?_hangUp hb p
      exact ⟨b, live', hlive', fun r hr => hunique r (hothers hr).1⟩
    case newcomer =>
      intro q hq
      obtain ⟨hout, b, hb⟩ := h.newcomer q hq
      have hne : q ≠ p := fun heq => hp (heq ▸ hq)
      exact ⟨hout, b, SharedSocket.livesAt_hangUp.2 ⟨hb, hne⟩⟩
    case waiting => exact fun q hq => SharedSocket.status?_hangUp_ne_none (h.waiting q hq) p
    case busy => exact h.busy
    case striking =>
      intro b hin
      rcases List.mem_cons.1 hin with heq | hin
      · exact hparty (Prod.mk.inj heq).1.symm
      · exact h.striking b hin

/-- Nobody lives at an address that is struck, and everybody else stays. -/
theorem strike (h : t.Orderly) (hin : (party, a) ∈ t.strikes) :
    Orderly { t with socket := t.socket.strike a, strikes := t.strikes.erase (party, a) } where
  owned p b hl := by
    have hb : b ≠ a := by
      rintro rfl
      exact h.strikes party b p hin hl
    rw [SharedSocket.peerFor?_strike, if_neg hb]
    exact h.owned p b hl
  entry b p hp := by
    rw [SharedSocket.peerFor?_strike] at hp
    split at hp
    · cases hp
    · next hb =>
      obtain ⟨live, hstatus, hwhy⟩ := h.entry b p hp
      refine ⟨live, hstatus, hwhy.imp_right ?_⟩
      rintro ⟨party', hin'⟩
      have hne : (party', b) ≠ (party, a) := fun heq => hb (Prod.mk.inj heq).2
      exact ⟨party', (List.mem_erase_of_ne hne).2 hin'⟩
  strikes party' b p hin' := h.strikes party' b p (List.mem_of_mem_erase hin')
  hand := h.hand
  newcomer := h.newcomer
  waiting := h.waiting
  busy := h.busy
  striking b hin' := h.striking b (List.mem_of_mem_erase hin')

theorem status?_fresh : t.socket.status? t.socket.peers.length = none :=
  SharedSocket.status?_eq_none (Nat.le_refl _)

/-- A new peer for a vacant address finds its entry free, and keeps it. -/
theorem addPeer (h : t.Orderly) (ha : t.Vacant a) :
    Orderly { t with socket := (t.socket.addPeer a).2 } where
  owned p b hl := by
    rw [SharedSocket.LivesAt, SharedSocket.status?_addPeer] at hl
    rw [SharedSocket.peerFor?_addPeer]
    split at hl
    · next hp =>
      cases hl
      rw [if_pos rfl, hp]
    · have hb : b ≠ a := by
        rintro rfl
        cases ha.entry.symm.trans (h.owned p b hl)
      rw [if_neg hb]
      exact h.owned p b hl
  entry b p hp := by
    rw [SharedSocket.peerFor?_addPeer] at hp
    split at hp
    · next hb =>
      cases hp
      exact ⟨true, hb ▸ SharedSocket.livesAt_addPeer t.socket a, .inl rfl⟩
    · obtain ⟨live, hstatus, hwhy⟩ := h.entry b p hp
      exact ⟨live, SharedSocket.status?_addPeer_of_some hstatus a, hwhy⟩
  strikes party b p hin hl := by
    rw [SharedSocket.LivesAt, SharedSocket.status?_addPeer] at hl
    split at hl
    · cases hl
      exact ha.strikes party hin
    · exact h.strikes party b p hin hl
  hand p d hp := by
    obtain ⟨b, live, hb, hunique⟩ := h.hand p d hp
    refine ⟨b, live, SharedSocket.status?_addPeer_of_some hb a, ?_⟩
    intro q hq
    rw [SharedSocket.LivesAt, SharedSocket.status?_addPeer] at hq
    split at hq
    · cases hq
      exact (ha.hand p d hp live hb).elim
    · exact hunique q hq
  newcomer p hp := by
    obtain ⟨hout, b, hb⟩ := h.newcomer p hp
    exact ⟨hout, b, SharedSocket.status?_addPeer_of_some hb a⟩
  waiting p hp := by
    obtain ⟨x, hx⟩ := Option.ne_none_iff_exists'.1 (h.waiting p hp)
    rw [SharedSocket.status?_addPeer_of_some hx]
    exact Option.some_ne_none x
  busy := h.busy
  striking := h.striking

theorem enter (h : t.Orderly) (hfree : ¬t.isStriking .distributor = true) (ha : t.Vacant a)
    (d : Datagram) :
    Orderly { t with socket := t.socket.enter a d, stage := .resting } := by
  have hadded := h.addPeer ha
  have hout : t.socket.peers.length ∉ t.socket.waiting :=
    fun hin => h.waiting _ hin status?_fresh
  constructor
  case owned => exact hadded.owned
  case entry => exact hadded.entry
  case strikes => exact hadded.strikes
  case hand => nofun
  case newcomer =>
    intro p hp
    cases hp
    exact ⟨hout, a, SharedSocket.livesAt_addPeer t.socket a⟩
  case waiting => exact hadded.waiting
  case busy => trivial
  case striking => exact fun b hin => (notMem_of_isStriking hfree b hin).elim

theorem handOver (h : t.Orderly) (hfree : ¬t.isStriking .distributor = true) :
    t.handOver.Orderly := by
  rw [Interleaving.handOver]
  split
  · next p d ht =>
    obtain ⟨-, a, ha⟩ := h.newcomer p (congrArg Task.newcomer? ht)
    have hforward := h.forwarding hfree ha (fun q hq => h.unique hq ha) d
    have hwaiting (q : Nat) (hq : q ∈ t.socket.waiting ++ [p]) : t.socket.status? q ≠ none := by
      rcases List.mem_append.1 hq with hq | hq
      · exact h.waiting q hq
      · rw [List.mem_singleton.1 hq, ha]
        exact Option.some_ne_none _
    exact ⟨hforward.owned, hforward.entry, hforward.strikes, hforward.hand, nofun, hwaiting,
      trivial, hforward.striking⟩
  · exact h
  · exact h
  · exact h

theorem forward? (h : t.Orderly) (hdead : ∀ a, t.socket.status? p ≠ some (a, false)) (d : Datagram)
    (hrest : t.stage = .resting) :
    Orderly { t with socket := (t.socket.forward? p d).getD t.socket } := by
  cases hs : t.socket.forward? p d with
  | none => exact h
  | some s =>
    obtain ⟨peer, hpeer, ⟨-, -, rfl⟩ | ⟨hl, -⟩⟩ := SharedSocket.forward?_eq_some hs
    · exact h.of_same (fun _ => rfl) (SharedSocket.status?_modify (fun _ => rfl) fun _ => rfl) rfl
        (fun _ => id) (.inr (.inl rfl)) (Stage.fits_of_resting hrest _)
    · rw [Bool.not_eq_true] at hl
      have hstatus := SharedSocket.status?_of_peers hpeer
      rw [hl] at hstatus
      exact (hdead peer.address hstatus).elim

/-- When the peer in hand is dead, nobody else lives at its address. -/
theorem giveUp (h : t.Orderly) (ht : t.socket.task = .forwarding p d)
    (hdead : t.socket.status? p = some (a, false)) (hrest : t.stage = .resting) :
    Orderly { t with
      socket := { t.socket with task := .idle }
      strikes := (.distributor, a) :: t.strikes } where
  owned := h.owned
  entry b q hq := by
    obtain ⟨live, hstatus, hwhy⟩ := h.entry b q hq
    refine ⟨live, hstatus, hwhy.imp_right ?_⟩
    exact fun ⟨party, hin⟩ => ⟨party, List.mem_cons_of_mem _ hin⟩
  strikes party b q hin hl := by
    rcases List.mem_cons.1 hin with heq | hin
    · cases heq
      obtain ⟨b, live, hb, hunique⟩ := h.hand p d ht
      cases hdead.symm.trans hb
      obtain rfl := hunique q hl
      cases hdead.symm.trans hl
    · exact h.strikes party b q hin hl
  hand := nofun
  newcomer := nofun
  waiting := h.waiting
  busy := Stage.fits_of_resting hrest _
  striking _ _ := .inl rfl

theorem resume (h : t.Orderly) (hrest : t.stage = .resting) : t.resume.Orderly := by
  rw [Interleaving.resume]
  cases ht : t.socket.task with
  | stopped => exact h
  | idle =>
    cases t.socket.inbox with
    | nil => exact h
    | cons x rest =>
      exact h.of_same (fun _ => rfl) (fun _ => rfl) rfl (fun _ => id) (.inl rfl) ht
  | admitting p d =>
    simp only
    split
    · apply h.ite
      intro _
      apply h.withStage
      rw [ht]
      exact Option.some_ne_none p
    · have hidle : Orderly { t with socket := { t.socket with task := .idle } } :=
        h.of_same (fun _ => rfl) (fun _ => rfl) rfl (fun _ => id) (.inr (.inl rfl))
          (Stage.fits_of_resting hrest _)
      exact hidle.hangUp nofun fun _ => .inl rfl
  | forwarding p d =>
    simp only
    split
    · next hdead => exact h.giveUp ht hdead hrest
    · next hlive =>
      apply h.forward? _ d hrest
      intro b hdead
      cases hlive.symm.trans hdead
    · next hnone =>
      apply h.forward? _ d hrest
      intro b hdead
      cases hnone.symm.trans hdead

theorem advance (h : t.Orderly) (hfree : ¬t.isStriking .distributor = true)
    (hx : ∀ a d, t.stage = .entering a d → t.Vacant a) : t.advance.Orderly := by
  have hfits {stage : Stage} (hstage : t.stage = stage) : stage.Fits t.socket.task :=
    hstage ▸ h.busy
  rw [Interleaving.advance]
  split
  · next hrest => exact h.resume hrest
  · next a d hstage =>
    have hidle : t.socket.task = .idle := hfits hstage
    split
    · next p hp =>
      obtain ⟨live, hstatus, -⟩ := h.entry a p hp
      apply h.forwarding hfree hstatus _ d
      intro q hq
      exact Option.some.inj ((h.owned q a hq).symm.trans hp)
    · exact h.withStage hidle
  · next hstage =>
    have hidle : t.socket.task = .idle := hfits hstage
    split
    · exact h.withStage hidle
    · exact h.withStage trivial
  · next a d hstage => exact h.enter hfree (hx a d hstage) d
  · exact h.handOver hfree
  · next hstage =>
    have hidle : t.socket.task = .idle := hfits hstage
    split
    · exact h.withStage trivial
    · exact h.withStage hidle
  · split
    · exact h.stop
    · exact h.withStage trivial

theorem cancel (h : t.Orderly) (hrest : t.stage = .resting) : t.cancel.Orderly := by
  have hstopped : Orderly { t with socket := { t.socket with task := .stopped } } :=
    h.of_same (fun _ => rfl) (fun _ => rfl) rfl (fun _ => id) (.inr (.inr rfl))
      (Stage.fits_of_resting hrest _)
  rw [Interleaving.cancel]
  split
  · exact hstopped.hangUp nofun fun _ => .inr rfl
  · exact hstopped

/-- Nothing but what the distributor is told and what waits for the owner changes. -/
theorem withSocket (h : t.Orderly) (hentry : ∀ a, s.peerFor? a = t.socket.peerFor? a)
    (hstatus : ∀ p, s.status? p = t.socket.status? p)
    (hwaiting : ∀ p ∈ s.waiting, p ∈ t.socket.waiting) (htask : s.task = t.socket.task)
    (closing : Closing) : Orderly { t with socket := s, closing } :=
  h.of_same hentry hstatus rfl hwaiting (.inl htask) (htask ▸ h.busy)

theorem proceed (h : t.Orderly) : t.proceed.Orderly := by
  have hsame (closing : Closing) {s : SharedSocket} (htable : s.table = t.socket.table)
      (hpeers : s.peers = t.socket.peers) (hwaiting : ∀ p ∈ s.waiting, p ∈ t.socket.waiting)
      (htask : s.task = t.socket.task) : Orderly { t with socket := s, closing } :=
    h.withSocket (fun _ => congrArg (List.lookup _) htable)
      (fun _ => congrArg (fun peers : List Peer => peers[_]?.map _) hpeers) hwaiting htask closing
  rw [Interleaving.proceed]
  split
  · exact h
  · exact h
  · exact hsame _ rfl rfl (fun _ => id) rfl
  · exact hsame _ rfl rfl (fun _ => id) rfl
  · exact hsame _ rfl rfl (fun _ => id) rfl
  · split
    · next p rest hwaiting =>
      have hin (q : Nat) (hq : q ∈ rest) : q ∈ t.socket.waiting := by
        rw [hwaiting]
        exact List.mem_cons_of_mem p hq
      have hrest := hsame t.closing (s := { t.socket with waiting := rest }) rfl rfl hin rfl
      -- The peer that the distributor hands over is not in the queue yet.
      have hnew : t.socket.task.newcomer? ≠ some p := by
        intro hnew
        apply (h.newcomer p hnew).1
        rw [hwaiting]
        exact List.mem_cons_self
      exact hrest.hangUp hnew nofun
    · split
      · exact hsame _ rfl rfl (fun _ => id) rfl
      · exact hsame _ rfl rfl (fun _ => id) rfl

theorem accept (h : t.Orderly) : Orderly { t with socket := t.socket.accept.2 } := by
  rw [SharedSocket.accept]
  split
  · cases hw : t.socket.waiting with
    | nil => exact h
    | cons p rest =>
      have hrest (q : Nat) (hq : q ∈ rest) : q ∈ t.socket.waiting := by
        rw [hw]
        exact List.mem_cons_of_mem p hq
      exact h.withSocket (s := { t.socket with waiting := rest }) (fun _ => rfl) (fun _ => rfl) hrest
        rfl t.closing
  · exact h

theorem read (h : t.Orderly) (n p : Nat) :
    Orderly { t with socket := (t.socket.read n p).2 } := by
  rw [SharedSocket.read]
  cases hp : t.socket.peers[p]? with
  | none => exact h
  | some peer =>
    have hstatus := SharedSocket.status?_set hp (peer.read_address n) (peer.read_isLive n)
    exact h.withSocket (s := { t.socket with peers := t.socket.peers.set p (peer.read n).2 })
      (fun _ => rfl) hstatus (fun _ => id) rfl t.closing

theorem act (h : t.Orderly) (x : Step) (hx : ∀ a, t.Makes x a → t.Vacant a) :
    (t.act x).Orderly := by
  cases x with
  | arrive a d =>
    exact h.withSocket (s := t.socket.arrive a d) (fun _ => rfl) (fun _ => rfl) (fun _ => id) rfl
      t.closing
  | advance =>
    rw [Interleaving.act]
    split
    · exact h
    · next hfree =>
      apply h.advance hfree
      intro a d hstage
      apply hx a
      show (t.act .advance).socket.LivesAt _ a
      rw [Interleaving.act, if_neg hfree, Interleaving.advance, hstage]
      exact SharedSocket.livesAt_addPeer t.socket a
  | rouse =>
    apply h.ite
    rintro ⟨-, hidle, -⟩
    exact h.of_same (fun _ => rfl) (fun _ => rfl) rfl (fun _ => id) (.inl rfl) hidle
  | cancel => exact h.ite fun hc => h.cancel hc.1
  | strike party a => exact h.ite h.strike
  | accept => exact h.ite fun _ => h.accept
  | connectFrom a =>
    apply h.ite
    intro hopen
    apply h.addPeer
    apply hx a
    show (t.act (.connectFrom a)).socket.LivesAt _ a
    rw [Interleaving.act, if_pos hopen]
    exact SharedSocket.livesAt_addPeer t.socket a
  | shutDown =>
    exact h.ite fun _ => h.withSocket (s := { t.socket with isOpen := false }) (fun _ => rfl)
      (fun _ => rfl) (fun _ => id) rfl _
  | abandon =>
    exact h.ite fun _ => h.withSocket (fun _ => rfl) (fun _ => rfl) (fun _ => id) rfl _
  | proceed =>
    rw [Interleaving.act]
    split
    · exact h
    · exact h.proceed
  | read n p => exact h.ite fun _ => h.read n p
  | hangUp p =>
    exact h.ite fun hp => h.hangUp (SharedSocket.isHandedOut_newcomer hp) nofun
  | letGo p =>
    have hstatus := SharedSocket.status?_modify (s := t.socket) (p := p)
      (f := fun peer => { peer with isHeld := false }) (fun _ => rfl) fun _ => rfl
    rw [Interleaving.act]
    split
    · exact h
    · exact h.withSocket (s := t.socket.letGo p) (fun _ => rfl) hstatus (fun _ => id) rfl t.closing

theorem run (h : t.Orderly) (schedule : List Step) (hs : t.Careful schedule) :
    (t.run schedule).Orderly := by
  induction schedule generalizing t with
  | nil => exact h
  | cons x schedule ih => exact ih (h.act x hs.1) hs.2

end Orderly

end Interleaving

end Wirebench.Loopback
