import Mathlib.Data.Finset.Card
import SingBox.Hysteria2.Realm

/-!
# The registry of the realm server

What holds of the realm server whenever its lock is free, over every interleaving of its handlers.  A session is
changed in three ways only: it is registered, it is removed, or what changes keeps its names and whether it is closed
(`Inv.register`, `Inv.remove`, `Inv.update`); every section is one of these.
-/

namespace SingBox.Hysteria2.Realm

open Lib List Multiset Option Function

/-- **The channels of a session** are closed at most once, with nothing sent on them after that, and there are not too
many pending attempts. -/
structure Session.Good (p : Session) : Prop where
  done : p.done.closes ≤ 1 ∧ p.done.lateSends = 0
  events : p.events.closes ≤ 1 ∧ p.events.lateSends = 0
  chans : ∀ ch, (p.chans ch).closes ≤ 1 ∧ (p.chans ch).lateSends = 0
  few : p.pending.keys.length ≤ maxPendingAttempts

def Server.Unclosed (s : Server) (i : ℕ) : Prop := i < s.created ∧ (s.session i).closed = false

def Server.unclosedOf (s : Server) (name : GoString) : Finset ℕ :=
  (Finset.range s.created).filter fun i => (s.session i).closed = false ∧ (s.session i).username = name

structure Registry (s : Server) : Prop where
  sessions : ∀ id i, s.sessions.lookup id = some i ↔ s.Unclosed i ∧ (s.session i).id = id
  realms : ∀ realm i, s.realms.lookup realm = some i ↔ s.Unclosed i ∧ (s.session i).realmID = realm
  counts : ∀ name, s.count name = (s.unclosedOf name).card
  good : ∀ i < s.created, (s.session i).Good

/-- A registration by a user with a limit succeeds only below it. -/
def Limited (s : Server) : Prop :=
  ∀ user realm addresses random now s', s.register user realm addresses random now = .ok s' → 0 < user.maxRealms →
    ((s.unclosedOf user.name).card : ℤ) < user.maxRealms

/-- The id of a session that is registered is not that of another. -/
def FreshId (c : Config Server Op) : Event Input Call → Prop
  | .sched i x =>
    match c.next i with
    | some (.register ..) => ∀ b ∈ x.random, ∀ j < c.shared.created, (c.shared.session j).id ≠ Server.encodeHex b
    | _ => True
  | .call _ => True

instance (c : Config Server Op) (ev : Event Input Call) : Decidable (FreshId c ev) := by
  unfold FreshId
  split
  · split <;> infer_instance
  · infer_instance

/-! ### Sessions -/

structure Session.Ok (p : Session) : Prop where
  good : p.Good
  opened : p.closed = false → p.done.closes = 0 ∧ p.events.closes = 0
  shut : p.closed = true → p.pending = ∅
  /-- A pending attempt has an open channel of its own. -/
  own : (p.pending.entries.map Sigma.snd).Nodup
  chan : ∀ ch ∈ p.pending.entries.map Sigma.snd, ch < p.made ∧ (p.chans ch).closes = 0

namespace Session

/-- The session is still the same, as far as the registry goes. -/
structure Same (p p' : Session) : Prop where
  id : p'.id = p.id
  realmID : p'.realmID = p.realmID
  username : p'.username = p.username
  closed : p'.closed = p.closed

lemma Same.refl (p : Session) : p.Same p := ⟨rfl, rfl, rfl, rfl⟩

lemma closeEach_counts (chans : ℕ → Chan (List GoString)) (pending : List ℕ) (ch : ℕ) :
    (closeEach chans pending ch).closes = (chans ch).closes + pending.count ch ∧
      (closeEach chans pending ch).lateSends = (chans ch).lateSends := by
  induction pending generalizing chans with
  | nil => exact ⟨rfl, rfl⟩
  | cons c rest ih =>
    obtain ⟨h1, h2⟩ := ih (update chans c (chans c).close)
    refine ⟨h1.trans ?_, h2.trans ?_⟩
    · by_cases hc : ch = c
      · subst hc
        simp
        omega
      · simp [hc, List.count_cons_of_ne (Ne.symm hc)]
    · by_cases hc : ch = c
      · subst hc
        simp
      · simp [hc]

variable (p : Session)

@[simp] lemma id_shut : p.shut.id = p.id := rfl
@[simp] lemma realmID_shut : p.shut.realmID = p.realmID := rfl
@[simp] lemma username_shut : p.shut.username = p.username := rfl
@[simp] lemma closed_shut : p.shut.closed = true := rfl

variable {p : Session}

/-- **Closing a session closes each of its channels once.** -/
theorem Ok.closing (h : p.Ok) (hc : p.closed = false) : p.shut.Ok := by
  obtain ⟨hd, he⟩ := h.opened hc
  refine ⟨⟨?_, ?_, fun ch => ?_, Nat.zero_le _⟩, by simp, fun _ => rfl, nodup_nil, nofun⟩
  · simp [Session.shut, hd, h.good.done.2]
  · simp [Session.shut, he, h.good.events.2]
  · obtain ⟨h1, h2⟩ := closeEach_counts p.chans (p.pending.entries.map Sigma.snd) ch
    refine ⟨?_, h2.trans (h.good.chans ch).2⟩
    rw [Session.shut, h1]
    by_cases hm : ch ∈ p.pending.entries.map Sigma.snd
    · rw [(h.chan ch hm).2, count_eq_one_of_mem h.own hm]
    · rw [count_eq_zero_of_not_mem hm]
      exact (h.good.chans ch).1

lemma Ok.cancelPending (h : p.Ok) (nonce : GoString) : (p.cancelPending nonce).Ok := by
  have hsub := (kerase_sublist nonce p.pending.entries).map Sigma.snd
  refine ⟨⟨h.good.done, h.good.events, h.good.chans, ?_⟩, h.opened, fun hc => ?_, h.own.sublist hsub,
    fun ch hm => h.chan ch (hsub.mem hm)⟩
  · refine le_trans ?_ h.good.few
    exact ((kerase_sublist nonce p.pending.entries).map Sigma.fst).length_le
  · simp [Session.cancelPending, h.shut hc]
    rfl

lemma Ok.registerPending (h : p.Ok) (nonce : GoString) :
    p.Same (p.registerPending nonce).2 ∧ (p.registerPending nonce).2.Ok := by
  unfold Session.registerPending
  split
  · exact ⟨.refl p, h⟩
  · split
    · exact ⟨.refl p, h⟩
    next hopen hnone =>
      simp only [Bool.or_eq_true, decide_eq_true_eq, not_or, Nat.not_le] at hopen
      have hmem : nonce ∉ p.pending := fun hm => hnone (AList.lookup_isSome.2 hm)
      have hentries : (p.pending.insert nonce p.made).entries.map Sigma.snd =
          p.made :: p.pending.entries.map Sigma.snd := by
        rw [AList.entries_insert_of_notMem hmem]
        rfl
      have hnew : p.made ∉ p.pending.entries.map Sigma.snd := fun hm => absurd (h.chan _ hm).1 (lt_irrefl _)
      refine ⟨⟨rfl, rfl, rfl, rfl⟩, ⟨h.good.done, h.good.events, fun ch => ?_, ?_⟩, h.opened,
        fun hc => absurd hc (by simp [hopen.1]), ?_, fun ch hm => ?_⟩
      · by_cases hch : ch = p.made
        · simp [hch]
        · simpa [hch] using h.good.chans ch
      · have : (p.pending.insert nonce p.made).keys.length = p.pending.keys.length + 1 := by
          rw [AList.keys, AList.entries_insert_of_notMem hmem]
          rfl
        rw [this]
        exact hopen.2
      · rw [hentries, List.nodup_cons]
        exact ⟨hnew, h.own⟩
      · rw [hentries, List.mem_cons] at hm
        rcases hm with rfl | hm
        · exact ⟨Nat.lt_succ_self _, by simp⟩
        · obtain ⟨hlt, hclosed⟩ := h.chan ch hm
          exact ⟨Nat.lt_succ_of_lt hlt, by simpa [Nat.ne_of_lt hlt] using hclosed⟩

/-- A channel changes, but not whether it was closed or sent on when closed. -/
lemma Ok.setChan (h : p.Ok) {ch : ℕ} {c : Chan (List GoString)} (h1 : c.closes = (p.chans ch).closes)
    (h2 : c.lateSends = (p.chans ch).lateSends) : { p with chans := update p.chans ch c }.Ok := by
  have hcounts := (forall_update_iff p.chans fun d c =>
    c.closes = (p.chans d).closes ∧ c.lateSends = (p.chans d).lateSends).2 ⟨⟨h1, h2⟩, fun _ _ => ⟨rfl, rfl⟩⟩
  refine ⟨⟨h.good.done, h.good.events, fun d => ?_, h.good.few⟩, h.opened, h.shut, h.own, fun d hm => ?_⟩
  · rw [(hcounts d).1, (hcounts d).2]
    exact h.good.chans d
  · rw [(hcounts d).1]
    exact h.chan d hm

lemma Ok.deliverPending (h : p.Ok) (nonce : GoString) (addresses : List GoString) :
    p.Same (p.deliverPending nonce addresses).2 ∧ (p.deliverPending nonce addresses).2.Ok := by
  unfold Session.deliverPending
  split
  · exact ⟨.refl p, h⟩
  · split
    · exact ⟨.refl p, h⟩
    next ch hch =>
      have hopen := (h.chan ch (mem_map.2 ⟨⟨nonce, ch⟩, AList.mem_lookup_iff.1 hch, rfl⟩)).2
      exact ⟨⟨rfl, rfl, rfl, rfl⟩,
        (h.cancelPending nonce).setChan (Chan.closes_trySend _ _) (Chan.lateSends_trySend hopen _)⟩

lemma Ok.sendEvent (h : p.Ok) (ev : RealmEvent) : p.Same (p.sendEvent ev).2 ∧ (p.sendEvent ev).2.Ok := by
  unfold Session.sendEvent
  split
  · exact ⟨.refl p, h⟩
  next hc =>
    have hopen := (h.opened (by simpa using hc)).2
    refine ⟨⟨rfl, rfl, rfl, rfl⟩, ⟨h.good.done, ?_, h.good.chans, h.good.few⟩, fun hc => ?_, h.shut, h.own, h.chan⟩
    · simpa [Chan.lateSends_trySend hopen] using h.good.events
    · simpa using h.opened hc

lemma Ok.receiveEvent (h : p.Ok) {v : Option RealmEvent} {c : Chan RealmEvent}
    (hr : p.events.recv = some (v, c)) : { p with events := c }.Ok := by
  obtain ⟨h1, h2⟩ := Chan.recv_counts hr
  exact ⟨⟨h.good.done, by simpa [h1, h2] using h.good.events, h.good.chans, h.good.few⟩,
    by simpa [h1] using h.opened, h.shut, h.own, h.chan⟩

end Session

/-! ### Maps that hold some sessions under a name of theirs -/

section

variable {m : GoMap ℕ} {P : ℕ → Prop} {name : ℕ → GoString}

lemma lookup_erase_iff (h : ∀ k j, m.lookup k = some j ↔ P j ∧ name j = k) {i : ℕ} (hi : P i) (k : GoString) (j : ℕ) :
    (m.erase (name i)).lookup k = some j ↔ (P j ∧ j ≠ i) ∧ name j = k := by
  by_cases hk : k = name i
  · subst hk
    rw [AList.lookup_erase]
    refine ⟨nofun, fun ⟨⟨hj, hne⟩, hname⟩ => absurd ?_ hne⟩
    have h1 := (h _ j).2 ⟨hj, hname⟩
    rw [(h _ i).2 ⟨hi, rfl⟩] at h1
    exact (some.inj h1).symm
  · rw [AList.lookup_erase_ne hk, h]
    exact ⟨fun ⟨hj, hname⟩ => ⟨⟨hj, fun heq => hk (hname ▸ heq ▸ rfl)⟩, hname⟩, fun ⟨⟨hj, _⟩, hname⟩ => ⟨hj, hname⟩⟩

lemma lookup_insert_iff (h : ∀ k j, m.lookup k = some j ↔ P j ∧ name j = k) {i : ℕ} (hi : ¬ P i) {k₀ : GoString}
    (hk₀ : m.lookup k₀ = none) (k : GoString) (j : ℕ) :
    (m.insert k₀ i).lookup k = some j ↔ (P j ∨ j = i) ∧ (if j = i then k₀ else name j) = k := by
  by_cases hj : j = i
  · subst hj
    by_cases hk : k = k₀
    · subst hk
      simp
    · simp only [AList.lookup_insert_ne hk, h, or_true, true_and]
      exact ⟨fun ⟨hp, _⟩ => absurd hp hi, fun heq => absurd heq.symm hk⟩
  · by_cases hk : k = k₀
    · subst hk
      have hno : ¬(P j ∧ name j = k) := fun hp => by simp [(h k j).2 hp] at hk₀
      simpa [hj, Ne.symm hj] using hno
    · simp [AList.lookup_insert_ne hk, h, hj]

end

/-! ### The registry over one section -/

/-- The sessions a section names have been registered. -/
def Op.names : Op → Option ℕ
  | .removeSession i | .heartbeat i _ | .sendEvent i _ | .deliverPending i .. | .receiveEvent i | .registerPending i _
  | .punch i .. | .await i _ | .cancelPending i _ | .removeExpiredSession i => some i
  | .register .. | .authSession .. | .lookupRealm .. | .closeAll => none

@[simp] lemma session_set_self (s : Server) (i : ℕ) (p : Session) : (s.set i p).session i = p :=
  update_self ..

@[simp] lemma session_set_of_ne (s : Server) {i j : ℕ} (p : Session) (h : j ≠ i) :
    (s.set i p).session j = s.session j := update_of_ne h ..

lemma ok_set {s : Server} {i j : ℕ} {p : Session} (hp : p.Ok) (hj : j ≠ i → (s.session j).Ok) :
    ((s.set i p).session j).Ok := by
  by_cases hji : j = i
  · rw [hji, session_set_self]
    exact hp
  · rw [session_set_of_ne _ _ hji]
    exact hj hji

lemma session_set_same (s : Server) {α : Type} (f : Session → α) {i : ℕ} {p : Session} (h : f p = f (s.session i))
    (j : ℕ) : f ((s.set i p).session j) = f (s.session j) :=
  (forall_update_iff s.session fun j q => f q = f (s.session j)).2 ⟨h, fun _ _ => rfl⟩ j

@[simp] lemma created_set (s : Server) (i : ℕ) (p : Session) : (s.set i p).created = s.created := rfl

/-- **What every run keeps of the server.** -/
structure Inv (s : Server) : Prop where
  registry : Registry s
  ids : ∀ i < s.created, ∀ j < s.created, (s.session i).id = (s.session j).id → i = j
  ok : ∀ i < s.created, (s.session i).Ok

namespace Inv

variable {s : Server} {i : ℕ}

lemma update (h : Inv s) {p : Session} (hp : (s.session i).Same p ∧ p.Ok) : Inv (s.set i p) := by
  obtain ⟨⟨h1, h2, h3, h4⟩, hp⟩ := hp
  have hses (j : ℕ) : (s.session j).Same ((s.set i p).session j) :=
    ⟨session_set_same s _ h1 j, session_set_same s _ h2 j, session_set_same s _ h3 j, session_set_same s _ h4 j⟩
  have hopen : ∀ j, (s.set i p).Unclosed j ↔ s.Unclosed j := fun j => by
    rw [Server.Unclosed, (hses j).closed]
    rfl
  have hok : ∀ j < s.created, ((s.set i p).session j).Ok := fun j hj => ok_set hp fun _ => h.ok j hj
  refine ⟨⟨fun id j => ?_, fun realm j => ?_, fun name => ?_, fun j hj => (hok j hj).good⟩,
    fun j hj k hk heq => ?_, hok⟩
  · rw [hopen, (hses j).id]
    exact h.registry.sessions id j
  · rw [hopen, (hses j).realmID]
    exact h.registry.realms realm j
  · have : (s.set i p).unclosedOf name = s.unclosedOf name :=
      Finset.filter_congr fun j _ => by rw [(hses j).closed, (hses j).username]
    rw [this]
    exact h.registry.counts name
  · rw [(hses j).id, (hses k).id] at heq
    exact h.ids j hj k hk heq

lemma count_uncount (s : Server) (name other : GoString) (h : 0 < s.count name) :
    ((s.uncount name).lookup other).getD 0 = if other = name then s.count name - 1 else s.count other := by
  unfold Server.uncount
  by_cases ho : other = name
  · subst ho
    split
    · simp only [AList.lookup_erase, getD_none, if_true]
      omega
    · simp
  · split
    · simp [AList.lookup_erase_ne ho, Server.count]
    · simp [AList.lookup_insert_ne ho, Server.count]

theorem remove (h : Inv s) (hi : i < s.created) : Inv (s.removeSessionLocked i) := by
  unfold Server.removeSessionLocked
  dsimp only
  split
  · exact h
  next hc =>
    have hc : (s.session i).closed = false := by simpa using hc
    have hlookup : s.sessions.lookup (s.session i).id = some i := (h.registry.sessions _ i).2 ⟨⟨hi, hc⟩, rfl⟩
    have hrealm : s.realms.lookup (s.session i).realmID = some i := (h.registry.realms _ i).2 ⟨⟨hi, hc⟩, rfl⟩
    have hmem : i ∈ s.unclosedOf (s.session i).username := by simp [Server.unclosedOf, hi, hc]
    have hopen : ∀ j, (s.set i (s.session i).shut).Unclosed j ↔ s.Unclosed j ∧ j ≠ i := by
      intro j
      by_cases hj : j = i <;> simp [Server.Unclosed, hj]
    have hid := session_set_same s Session.id (Session.id_shut (s.session i))
    have hrealmID := session_set_same s Session.realmID (Session.realmID_shut (s.session i))
    have hunclosed : ∀ name, (s.set i (s.session i).shut).unclosedOf name = (s.unclosedOf name).erase i := by
      intro name
      ext j
      by_cases hj : j = i <;> simp [Server.unclosedOf, hj]
    have hok : ∀ j < s.created, ((s.set i (s.session i).shut).session j).Ok := fun j hj =>
      ok_set ((h.ok i hi).closing hc) fun _ => h.ok j hj
    have hcount := h.registry.counts (s.session i).username
    have hpos := Finset.card_pos.2 ⟨i, hmem⟩
    rw [if_pos hrealm, if_pos (by rw [hlookup]; rfl)]
    refine ⟨⟨fun id j => ?_, fun realm j => ?_, fun name => ?_, fun j hj => (hok j hj).good⟩,
    fun j hj k hk heq => ?_, hok⟩
    · refine (lookup_erase_iff h.registry.sessions ⟨hi, hc⟩ id j).trans ?_
      exact and_congr (hopen j).symm (by rw [← hid j])
    · refine (lookup_erase_iff h.registry.realms ⟨hi, hc⟩ realm j).trans ?_
      exact and_congr (hopen j).symm (by rw [← hrealmID j])
    · refine (count_uncount s _ name (by omega)).trans ?_
      change _ = (((s.set i (s.session i).shut).unclosedOf name).card : ℤ)
      rw [hunclosed]
      split
      next heq =>
        rw [heq, Finset.card_erase_of_mem hmem]
        omega
      next hne => rw [Finset.erase_eq_of_notMem (by simp [Server.unclosedOf, Ne.symm hne]), h.registry.counts name]
    · exact h.ids j hj k hk ((hid j).symm.trans (heq.trans (hid k)))

lemma count_insert (s : Server) (name other : GoString) :
    ((s.userCounts.insert name (s.count name + 1)).lookup other).getD 0 =
      if other = name then s.count name + 1 else s.count other := by
  by_cases ho : other = name
  · subst ho
    simp
  · simp [ho, Server.count]

lemma ok_newSession (user : User) (realm : GoString) (addresses : List GoString) (b : List Byte) (now : ℤ) :
    (Server.newSession user realm addresses b now).Ok :=
  ⟨⟨⟨Nat.zero_le _, rfl⟩, ⟨Nat.zero_le _, rfl⟩, fun _ => ⟨Nat.zero_le _, rfl⟩, Nat.zero_le _⟩,
    fun _ => ⟨rfl, rfl⟩, nofun, nodup_nil, nofun⟩

/-- **A session is added** under names that are free. -/
theorem added (h : Inv s) {p : Session} (hp : p.Ok) (hclosed : p.closed = false)
    (hid : s.sessions.lookup p.id = none) (hrealm : s.realms.lookup p.realmID = none)
    (hids : ∀ j < s.created, (s.session j).id ≠ p.id) :
    Inv { s.set s.created p with
      created := s.created + 1
      realms := s.realms.insert p.realmID s.created
      sessions := s.sessions.insert p.id s.created
      userCounts := s.userCounts.insert p.username (s.count p.username + 1) } := by
  have hnew : ¬ s.Unclosed s.created := fun hn => lt_irrefl _ hn.1
  have hlt : ∀ j, j < s.created + 1 ↔ j < s.created ∨ j = s.created := fun j => by omega
  have hopen : ∀ j, (j < s.created + 1 ∧ ((s.set s.created p).session j).closed = false) ↔
      s.Unclosed j ∨ j = s.created := by
    intro j
    by_cases hj : j = s.created
    · simp [hj, hclosed]
    · simp [Server.Unclosed, hj, hlt]
  have hok : ∀ j < s.created + 1, ((s.set s.created p).session j).Ok := fun j hj =>
    ok_set hp fun hne => h.ok j (by omega)
  have hname : ∀ (f : Session → GoString) j, f ((s.set s.created p).session j) =
      if j = s.created then f p else f (s.session j) := by
    intro f j
    by_cases hj : j = s.created <;> simp [hj]
  refine ⟨⟨fun id j => ?_, fun realm j => ?_, fun name => ?_, fun j hj => (hok j hj).good⟩,
    fun j hj k hk heq => ?_, hok⟩
  · refine (lookup_insert_iff h.registry.sessions hnew hid id j).trans ?_
    exact and_congr (hopen j).symm (by rw [hname Session.id])
  · refine (lookup_insert_iff h.registry.realms hnew hrealm realm j).trans ?_
    exact and_congr (hopen j).symm (by rw [hname Session.realmID])
  · refine (count_insert s p.username name).trans ?_
    change _ = (((Finset.range (s.created + 1)).filter fun j =>
      ((s.set s.created p).session j).closed = false ∧ ((s.set s.created p).session j).username = name).card : ℤ)
    have hold : s.created ∉ s.unclosedOf name := by simp [Server.unclosedOf]
    have hset : (Finset.range (s.created + 1)).filter (fun j =>
        ((s.set s.created p).session j).closed = false ∧ ((s.set s.created p).session j).username = name) =
        if name = p.username then insert s.created (s.unclosedOf name) else s.unclosedOf name := by
      ext j
      by_cases hj : j = s.created
      · by_cases hn : name = p.username
        · simp [hj, hclosed, hn]
        · simp [hj, hn, hold, Ne.symm hn]
      · by_cases hn : name = p.username <;> simp [Server.unclosedOf, hj, hlt, hn]
    rw [hset]
    split
    next hn =>
      rw [Finset.card_insert_of_notMem hold, ← hn, h.registry.counts name]
      omega
    · exact h.registry.counts name
  · rw [hname Session.id, hname Session.id] at heq
    rcases (hlt j).1 hj with hj | rfl <;> rcases (hlt k).1 hk with hk | rfl
    · rw [if_neg (by omega), if_neg (by omega)] at heq
      exact h.ids j hj k hk heq
    · rw [if_neg (by omega), if_pos rfl] at heq
      exact absurd heq (hids j hj)
    · rw [if_pos rfl, if_neg (by omega)] at heq
      exact absurd heq.symm (hids k hk)
    · rfl

theorem register (h : Inv s) {user : User} {realm : GoString} {addresses : List GoString} {random : Option (List Byte)}
    {now : ℤ} {s' : Server} (hreg : s.register user realm addresses random now = .ok s')
    (hfresh : ∀ b ∈ random, ∀ j < s.created, (s.session j).id ≠ Server.encodeHex b) :
    Inv s' ∧ s.created ≤ s'.created := by
  unfold Server.register at hreg
  split at hreg
  · cases hreg
  next hnone =>
    split at hreg
    · cases hreg
    · split at hreg
      · cases hreg
      next b =>
        cases hreg
        have hrealm : s.realms.lookup realm = none := by simpa using hnone
        have hid : s.sessions.lookup (Server.encodeHex b) = none := by
          refine eq_none_iff_forall_ne_some.2 fun j hj => ?_
          obtain ⟨hopen, hid⟩ := (h.registry.sessions _ j).1 hj
          exact hfresh b rfl j hopen.1 hid
        exact ⟨h.added (ok_newSession user realm addresses b now) rfl hid hrealm (hfresh b rfl), Nat.le_succ _⟩

lemma created_remove (s : Server) (i : ℕ) : (s.removeSessionLocked i).created = s.created := by
  unfold Server.removeSessionLocked
  dsimp only
  split <;> rfl

lemma removeAll (h : Inv s) (order : List ℕ) (ho : ∀ i ∈ order, i < s.created) :
    Inv (order.foldl Server.removeSessionLocked s) ∧
      (order.foldl Server.removeSessionLocked s).created = s.created := by
  induction order generalizing s with
  | nil => exact ⟨h, rfl⟩
  | cons i order ih =>
    obtain ⟨hinv, hcreated⟩ := ih (h.remove (ho i mem_cons_self)) fun j hj => by
      rw [created_remove]
      exact ho j (mem_cons_of_mem i hj)
    exact ⟨hinv, hcreated.trans (created_remove s i)⟩

end Inv

def Named (s : Server) (m : Multiset Op) : Prop := ∀ o ∈ m, ∀ i, o.names = some i → i < s.created

lemma Session.Ok.heartbeat {p : Session} (h : p.Ok) (addresses : Option (List GoString)) (now : ℤ) :
    (p.heartbeat addresses now).Ok :=
  ⟨⟨h.good.done, h.good.events, h.good.chans, h.good.few⟩, h.opened, h.shut, h.own, h.chan⟩

lemma names_ops {i j : ℕ} {k : Handler} {o : Op} (ho : o ∈ k.ops i) (hj : o.names = some j) : j = i := by
  cases k <;> simp [Handler.ops] at ho
  · subst ho
    exact (some.inj hj).symm
  · rcases ho with rfl | rfl <;> exact (some.inj hj).symm
  · subst ho
    exact (some.inj hj).symm
  · subst ho
    exact (some.inj hj).symm

/-- What a section leads to from `s`: the invariant is kept, and the sections that take its place name registered
sessions. -/
def Kept (s : Server) (r : Server × List Op) : Prop :=
  Inv r.1 ∧ s.created ≤ r.1.created ∧ ∀ o ∈ r.2, ∀ i, o.names = some i → i < s.created

theorem inv_exec {o : Op} {x : Input} {s : Server} {r : Server × List Op} (hx : exec o x s = some r) (h : Inv s)
    (hi : ∀ i, o.names = some i → i < s.created) (hfresh : ∀ user realm addresses, o = .register user realm addresses →
      ∀ b ∈ x.random, ∀ j < s.created, (s.session j).id ≠ Server.encodeHex b) : Kept s r := by
  have hidle : Kept s (s, []) := ⟨h, le_rfl, nofun⟩
  have hset {i : ℕ} {p : Session} {new : List Op} (hp : (s.session i).Same p ∧ p.Ok)
      (hnew : ∀ o' ∈ new, ∀ i, o'.names = some i → i < s.created) : Kept s (s.set i p, new) :=
    ⟨h.update hp, le_rfl, hnew⟩
  have hremove (i : ℕ) (hi : i < s.created) : Kept s (s.removeSessionLocked i, []) :=
    ⟨h.remove hi, (Inv.created_remove s i).ge, nofun⟩
  unfold exec at hx
  cases o with
  | register user realm addresses =>
    dsimp only at hx
    split at hx <;> cases hx
    next hreg =>
      obtain ⟨hinv, hle⟩ := h.register hreg (hfresh user realm addresses rfl)
      exact ⟨hinv, hle, nofun⟩
    · exact hidle
  | authSession token realm k =>
    dsimp only at hx
    split at hx <;> cases hx
    next i hget =>
      refine ⟨h, le_rfl, fun o' ho' j hj => ?_⟩
      have hlookup := (filter_eq_some_iff.1 hget).1
      split at ho'
      · rw [names_ops ho' hj]
        exact ((h.registry.sessions token i).1 hlookup).1.1
      · cases ho'
    · exact hidle
  | removeSession i =>
    cases hx
    exact hremove i (hi i rfl)
  | heartbeat i addresses =>
    cases hx
    exact hset ⟨⟨rfl, rfl, rfl, rfl⟩, (h.ok i (hi i rfl)).heartbeat addresses x.now⟩ nofun
  | sendEvent i ev =>
    cases hx
    exact hset ((h.ok i (hi i rfl)).sendEvent ev) nofun
  | deliverPending i nonce addresses =>
    cases hx
    exact hset ((h.ok i (hi i rfl)).deliverPending nonce addresses) nofun
  | receiveEvent i =>
    dsimp only at hx
    split at hx
    · cases hx
      exact hidle
    · obtain ⟨⟨v, c⟩, hr, heq⟩ := map_eq_some_iff.1 hx
      cases heq
      refine hset ⟨⟨rfl, rfl, rfl, rfl⟩, (h.ok i (hi i rfl)).receiveEvent hr⟩ ?_
      split
      · exact forall_mem_singleton.2 hi
      · exact nofun
  | lookupRealm realm req =>
    dsimp only at hx
    split at hx <;> cases hx
    next i hget =>
      refine ⟨h, le_rfl, forall_mem_singleton.2 fun j hj => ?_⟩
      cases hj
      exact ((h.registry.realms realm i).1 (filter_eq_some_iff.1 hget).1).1.1
    · exact hidle
  | registerPending i req =>
    dsimp only at hx
    split at hx <;> cases hx
    · exact hset ((h.ok i (hi i rfl)).registerPending req.nonce) (forall_mem_cons.2 ⟨hi, forall_mem_singleton.2 hi⟩)
    · exact hidle
  | punch i ch req =>
    cases hx
    refine hset ((h.ok i (hi i rfl)).sendEvent _) ?_
    split
    · exact forall_mem_singleton.2 hi
    · exact nofun
  | await i ch =>
    dsimp only at hx
    split at hx
    · obtain ⟨⟨v, c⟩, hr, heq⟩ := map_eq_some_iff.1 hx
      cases heq
      obtain ⟨h1, h2⟩ := Chan.recv_counts hr
      exact hset ⟨⟨rfl, rfl, rfl, rfl⟩, (h.ok i (hi i rfl)).setChan h1 h2⟩ nofun
    · split at hx <;> cases hx
      exact hidle
    all_goals
      cases hx
      exact hidle
  | cancelPending i nonce =>
    cases hx
    exact hset ⟨⟨rfl, rfl, rfl, rfl⟩, (h.ok i (hi i rfl)).cancelPending nonce⟩ nofun
  | removeExpiredSession i =>
    cases hx
    unfold Server.removeExpiredSession
    split
    · exact hidle
    · exact hremove i (hi i rfl)
  | closeAll =>
    dsimp only at hx
    split at hx <;> cases hx
    next hperm =>
    obtain ⟨hinv, hcreated⟩ := h.removeAll x.order fun i hm => by
      obtain ⟨⟨id, j⟩, hmem, rfl⟩ := mem_map.1 (hperm.mem_iff.1 hm)
      exact ((h.registry.sessions id j).1 (AList.mem_lookup_iff.2 hmem)).1.1
    exact ⟨hinv, hcreated.ge, nofun⟩

lemma inv_initial : Inv {} where
  registry := ⟨fun _ i => ⟨nofun, fun h => absurd h.1.1 (Nat.not_lt_zero i)⟩,
    fun _ i => ⟨nofun, fun h => absurd h.1.1 (Nat.not_lt_zero i)⟩, fun _ => rfl, nofun⟩
  ids := nofun
  ok := nofun

lemma inv_step (c : Config Server Op) (ev : Event Input Call) (c' : Config Server Op)
    (h : program.step c ev = some c') (hfresh : FreshId c ev) (hc : Inv c.shared ∧ Named c.shared c.pending) :
    Inv c'.shared ∧ Named c'.shared c'.pending := by
  obtain ⟨hinv, hnamed⟩ := hc
  rcases Program.step_cases h with ⟨k, rfl, h1, h2⟩ | ⟨i, x, o, s', new, m, rfl, hi, hx, rfl, h1, h2⟩
  · have hshared : c'.shared = c.shared := by
      rw [h1]
      cases k <;> rfl
    rw [hshared, h2]
    refine ⟨hinv, fun o ho i hi => ?_⟩
    rcases mem_add.1 ho with ho | ho
    · cases k with
      | expiry j =>
        simp only [program, entry] at ho
        split at ho
        · rw [List.mem_singleton.1 ho] at hi
          cases hi
          assumption
        · cases ho
      | _ =>
        rw [List.mem_singleton.1 ho] at hi
        cases hi
    · exact hnamed o ho i hi
  · have hmem : o ∈ c.pending := h1 ▸ mem_cons_self _ _
    obtain ⟨hinv', hle, hnew⟩ := inv_exec hx hinv (hnamed o hmem) fun user realm addresses ho => by
      simpa [FreshId, hi, ho] using hfresh
    rw [h2]
    refine ⟨hinv', fun o' ho' j hj => ?_⟩
    rcases mem_add.1 ho' with ho' | ho'
    · exact lt_of_lt_of_le (hnew o' ho' j hj) hle
    · exact lt_of_lt_of_le (hnamed o' (h1 ▸ mem_cons_of_mem ho') j hj) hle

/-- A registration looks at the count, and the count is right. -/
lemma Registry.limited {s : Server} (h : Registry s) : Limited s := by
  intro user realm addresses random now s' hreg hpos
  unfold Server.register at hreg
  split at hreg
  · cases hreg
  · split at hreg
    · cases hreg
    next hlimit =>
      rw [not_and, not_le, h.counts] at hlimit
      exact hlimit hpos

/-- **The registry of the realm server.**  In every run with pairwise distinct session ids, whenever the lock is free:
the two maps hold exactly the sessions that are not closed, each under its own name, the counts of the users are the
numbers of their sessions and are held against their limits, and no session has too many pending attempts, closes a
channel twice or sends on a closed one. -/
theorem realm_registry (evs : List (Event Input Call)) (h : StepAll program.step FreshId (Config.init {}) evs) :
    VisitAll program.step (fun c => Registry c.shared ∧ Limited c.shared) (Config.init {}) evs := by
  have hinv := visitAll_of_stepAll (I := fun c => Inv c.shared ∧ Named c.shared c.pending) inv_step evs
    ⟨inv_initial, fun o ho => absurd ho (notMem_zero o)⟩ h
  exact hinv.imp fun c hc => ⟨hc.1.registry, hc.1.registry.limited⟩

/-- Two servers of a user with a limit of one register, and the callback of the first one's timer runs too early and
then late enough. -/
def sampleRun : List (Event Input Call) :=
  [.call (.register ⟨ascii "u", 1⟩ (ascii "a") []), .sched 0 { random := some [0x0f] },
    .call (.register ⟨ascii "u", 1⟩ (ascii "b") []), .sched 1 { random := some [0x10] },
    .call (.expiry 0), .sched 2 { now := 60 }, .call (.expiry 0), .sched 3 { now := 61 },
    .call (.register ⟨ascii "u", 1⟩ (ascii "b") []), .sched 4 { random := some [0x10] }]

theorem realm_registry_sample : StepAll program.step FreshId (Config.init {}) sampleRun ∧
    ∃ c, runOf program.step (Config.init {}) sampleRun = some c ∧ c.shared.created = 2 ∧
      Registry c.shared ∧ Limited c.shared :=
  ⟨by decide +kernel, _, rfl, by decide +kernel,
    VisitAll.last (P := fun c : Config Server Op => Registry c.shared ∧ Limited c.shared)
      (realm_registry sampleRun (by decide +kernel)) rfl⟩

end SingBox.Hysteria2.Realm
