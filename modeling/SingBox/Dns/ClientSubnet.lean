import Mathlib.Data.List.GetD
import Mathlib.Data.List.Nodup
import SingBox.Dns.Message

/-!
# The client subnet of a message

`SetClientSubnet` looks for the OPT record of a message, edits a copy of it or appends a new one, and leaves the message
it was given alone.  Setting, reading and removing the subnet are the operations of a lens, unless the loop that looks
for the record has lost it again: an OPT record without a client subnet is forgotten at the next record.
-/

namespace SingBox.Dns

open List Function

def RR.isOPT (r : RR) : Bool :=
  match r.data with
  | .opt _ => true
  | _ => false

def RR.options (r : RR) : List EDNS0 :=
  match r.data with
  | .opt options => options
  | _ => []

variable {m : Msg} {r : RR} {pre post : List RR} {options : List EDNS0} {address : Addr} {bits : ℕ}

/-! ### The message in memory -/

/-- A message whose additional records are pointers. -/
structure MsgPtr where
  sections : Msg
  extra : List ℕ

structure Heap where
  record : ℕ → RR
  next : ℕ

def Heap.load (h : Heap) (p : MsgPtr) : Msg := { p.sections with extra := p.extra.map h.record }

/-- All records of the message are allocated. -/
def Heap.Valid (h : Heap) (p : MsgPtr) : Prop := ∀ i ∈ p.extra, i < h.next

/-- `dns.Msg.Copy`: a message of its own with the same content. -/
structure Copier where
  copy : Heap → MsgPtr → Heap × MsgPtr
  keeps : ∀ h p i, i < h.next → (copy h p).1.record i = h.record i
  fresh : ∀ h p, ∀ i ∈ (copy h p).2.extra, h.next ≤ i
  nodup : ∀ h p, (copy h p).2.extra.Nodup
  same : ∀ h p, (copy h p).1.load (copy h p).2 = h.load p

/-- The function `setClientSubnet`: `edit` is what is done with an OPT record that was found. -/
def setSubnetPtr (address : Addr) (bits : ℕ) (edit : ℕ → Heap × MsgPtr) (h : Heap) (p : MsgPtr) : Heap × MsgPtr :=
  match findExists (h.load p).extra with
  | some i => edit i
  | none =>
    let opt := { name := ".", rrtype := typeOPT, cls := 0, data := .opt (setSubnetOption address bits []) }
    ({ record := Function.update h.record h.next opt, next := h.next + 1 }, { p with extra := p.extra ++ [h.next] })

/-- `SetClientSubnet`: the OPT record is looked for again in the copy, and edited there. -/
def Copier.setClientSubnet (c : Copier) (address : Addr) (bits : ℕ) (h : Heap) (p : MsgPtr) : Heap × MsgPtr :=
  setSubnetPtr address bits (fun _ =>
    let (h', p') := c.copy h p
    setSubnetPtr address bits (fun i =>
      let opt := p'.extra.getD i 0
      ({ h' with record := Function.update h'.record opt ((h'.record opt).setSubnet address bits) }, p')) h' p') h p

lemma map_update_modify {l : List ℕ} (hl : l.Nodup) {i : ℕ} (hi : i < l.length) (record : ℕ → RR) (f : RR → RR) :
    l.map (Function.update record (l.getD i 0) (f (record (l.getD i 0)))) = (l.map record).modify i f := by
  refine ext_getElem (by simp) fun j hj _ => ?_
  rw [length_map] at hj
  simp only [getElem_map, getElem_modify, getD_eq_getElem _ _ hi]
  split
  next h =>
    subst h
    simp
  next h => rw [update_of_ne fun heq => h (hl.getElem_inj_iff.1 heq).symm]

lemma findExists_lt {extra : List RR} {i : ℕ} (h : findExists extra = some i) : i < extra.length := by
  unfold findExists at h
  split at h
  next hi =>
    cases h
    exact (findIdx?_eq_some_iff_getElem.1 hi).1
  · split at h
    next hlast =>
      cases h
      exact Nat.sub_one_lt (length_pos_of_mem (mem_of_getLast? hlast)).ne'
    · cases h

/-- **In memory a message with the subnet is made, and the message itself stays as it is.** -/
theorem Copier.setClientSubnet_load (c : Copier) (address : Addr) (bits : ℕ) {h : Heap} {p : MsgPtr} (hp : h.Valid p) :
    let out := c.setClientSubnet address bits h p
    out.1.load out.2 = Dns.setClientSubnet (h.load p) address bits ∧ out.1.load p = h.load p := by
  unfold Copier.setClientSubnet setSubnetPtr Dns.setClientSubnet
  cases hfind : findExists (h.load p).extra with
  | none =>
    have hold (opt : RR) : p.extra.map (Function.update h.record h.next opt) = p.extra.map h.record :=
      map_congr_left fun i hi => update_of_ne (hp i hi).ne ..
    simp [Heap.load, hold]
  | some i =>
    have hsame := c.same h p
    have hi := findExists_lt hfind
    dsimp only
    rw [hsame, hfind]
    rw [← hsame] at hi
    simp only [Heap.load, length_map] at hi
    refine ⟨?_, ?_⟩
    · rw [← hsame]
      simp only [Heap.load, map_update_modify (c.nodup h p) hi]
    · have hold : ∀ j ∈ p.extra, j ≠ (c.copy h p).2.extra.getD i 0 := fun j hj heq => by
        rw [getD_eq_getElem _ _ hi] at heq
        exact absurd (hp j hj) (not_lt.2 (heq ▸ c.fresh h p _ (getElem_mem hi)))
      simp only [Heap.load]
      congr 1
      exact map_congr_left fun j hj => by rw [update_of_ne (hold j hj), c.keeps h p j (hp j hj)]

lemma RR.options_of_not_isOPT (h : r.isOPT = false) : r.options = [] := by
  obtain ⟨_, _, _, _, data⟩ := r
  cases data with
  | opt options => cases h
  | _ => rfl

lemma RR.subnets_eq (r : RR) : r.subnets = r.options.filter EDNS0.isSubnet := by
  obtain ⟨_, _, _, _, data⟩ := r
  cases data <;> rfl

lemma findIdx?_subnets_none (h : ∀ r ∈ pre, r.isOPT = false) : pre.findIdx? (fun r => !r.subnets.isEmpty) = none :=
  findIdx?_eq_none_iff.2 fun r hr => by simp [RR.subnets_eq, RR.options_of_not_isOPT (h r hr)]

lemma findExists_none {extra : List RR} (hidx : extra.findIdx? (fun r => !r.subnets.isEmpty) = none)
    (hlast : ∀ r ∈ extra.getLast?, r.isOPT = false) : findExists extra = none := by
  unfold findExists
  rw [hidx]
  cases h : extra.getLast? with
  | none => rfl
  | some r =>
    have hr := hlast r h
    obtain ⟨_, _, _, _, data⟩ := r
    cases data with
    | opt options => cases hr
    | _ => rfl

/-- Where the only OPT record is found: if it has a client subnet, or else if it comes last. -/
lemma findExists_split (h : ∀ r ∈ pre ++ post, r.isOPT = false) (hr : r.isOPT = true) :
    findExists (pre ++ r :: post) = if r.subnets ≠ [] ∨ post = [] then some pre.length else none := by
  obtain ⟨hpre, hpost⟩ := forall_mem_append.1 h
  have hidx : (pre ++ r :: post).findIdx? (fun r => !r.subnets.isEmpty) =
      if r.subnets = [] then none else some pre.length := by
    rw [findIdx?_append, findIdx?_subnets_none hpre, findIdx?_cons, findIdx?_subnets_none hpost]
    by_cases hs : r.subnets = [] <;> simp [hs]
  by_cases hs : r.subnets = []
  · rw [if_pos hs] at hidx
    rcases eq_nil_or_concat' post with rfl | ⟨init, last, rfl⟩
    · unfold findExists
      rw [hidx]
      obtain ⟨_, _, _, _, data⟩ := r
      cases data with
      | opt options => simp
      | _ => cases hr
    · rw [findExists_none hidx, if_neg (by simp [hs])]
      rw [← cons_append, ← append_assoc, getLast?_concat]
      intro r' hr'
      exact Option.some.inj hr' ▸ hpost last (by simp)
  · rw [findExists, hidx, if_neg hs, if_pos (.inl hs)]

/-! ### The lens -/

lemma setSubnetOption_spec (address : Addr) (bits : ℕ) (options : List EDNS0) :
    (setSubnetOption address bits options).eraseP EDNS0.isSubnet = options.eraseP EDNS0.isSubnet ∧
    (∃ family scope rest, (setSubnetOption address bits options).filter EDNS0.isSubnet =
      .subnet family (bits % 2 ^ 8) scope (some address) :: rest) ∧
    ∀ address' bits', setSubnetOption address' bits' (setSubnetOption address bits options) =
      setSubnetOption address' bits' options := by
  induction options with
  | nil => exact ⟨rfl, ⟨_, _, _, rfl⟩, fun _ _ => rfl⟩
  | cons o options ih =>
    cases o with
    | subnet family mask scope old => exact ⟨rfl, ⟨_, _, _, rfl⟩, fun _ _ => rfl⟩
    | other code data =>
      obtain ⟨herase, hfilter, hagain⟩ := ih
      refine ⟨?_, hfilter, fun address' bits' => ?_⟩
      · simp [setSubnetOption, EDNS0.isSubnet, herase]
      · simp [setSubnetOption, hagain]

/-- The laws of setting a subnet: there is one OPT record then, everything else is as it was, the subnet is read and
removed again, and it does not matter what was set before. -/
structure SubnetLens (m m' : Msg) (address : Addr) (bits : ℕ) : Prop where
  one : m'.extra.countP RR.isOPT = 1
  sections : { m' with extra := m.extra } = m
  records : m'.extra.filter (!RR.isOPT ·) = m.extra.filter (!RR.isOPT ·)
  options : (m'.extra.flatMap RR.options).eraseP EDNS0.isSubnet = (m.extra.flatMap RR.options).eraseP EDNS0.isSubnet
  get : clientSubnetFromMessage m' = ⟨some address, some bits⟩
  removed : ∀ r ∈ (removeClientSubnet m').extra, ∀ o ∈ r.options, o.option ≠ edns0Subnet
  again : ∀ address' bits', setClientSubnet m' address' bits' = setClientSubnet m address' bits'

/-- The loop does not lose the OPT record. -/
def Msg.KeepsOPT (m : Msg) : Prop := ∀ r ∈ m.extra, r.isOPT = true → r.subnets ≠ [] ∨ m.extra.getLast? = some r

lemma exists_split_isOPT (hone : m.extra.countP RR.isOPT ≤ 1) (hr : r ∈ m.extra) (hopt : r.isOPT = true) :
    ∃ pre post, m.extra = pre ++ r :: post ∧ ∀ r' ∈ pre ++ post, r'.isOPT = false := by
  obtain ⟨pre, post, heq⟩ := append_of_mem hr
  refine ⟨pre, post, heq, fun r' hr' => ?_⟩
  rw [heq, countP_append, countP_cons_of_pos hopt] at hone
  have hzero : (pre ++ post).countP RR.isOPT = 0 := by
    rw [countP_append]
    omega
  simpa using countP_eq_zero.1 hzero r' hr'

lemma removeClientSubnet_removed (m : Msg) :
    ∀ r ∈ (removeClientSubnet m).extra, ∀ o ∈ r.options, o.option ≠ edns0Subnet := by
  intro r hr o ho
  obtain ⟨⟨_, _, _, _, data⟩, -, rfl⟩ := mem_map.1 hr
  cases data with
  | opt options => simpa using (mem_filter.1 ho).2
  | _ => cases ho

/-- The subnet is set in the OPT record that the loop has found. -/
lemma setClientSubnet_split (h : ∀ r ∈ pre ++ post, r.isOPT = false) (hr : r.isOPT = true)
    (hfound : r.subnets ≠ [] ∨ post = []) (hm : m.extra = pre ++ r :: post) (address : Addr) (bits : ℕ) :
    setClientSubnet m address bits =
      { m with extra := pre ++ { r with data := .opt (setSubnetOption address bits r.options) } :: post } := by
  have hmodify (f : RR → RR) (pre : List RR) : (pre ++ r :: post).modify pre.length f = pre ++ f r :: post := by
    induction pre with
    | nil => rfl
    | cons r' pre ih => exact congrArg (cons r') ih
  rw [setClientSubnet, hm, findExists_split h hr, if_pos hfound]
  simp only [hmodify]
  obtain ⟨_, _, _, _, data⟩ := r
  cases data with
  | opt options => rfl
  | _ => cases hr

/-- The subnet is set in a new OPT record. -/
lemma setClientSubnet_new (h : findExists m.extra = none) (address : Addr) (bits : ℕ) :
    setClientSubnet m address bits = { m with extra := m.extra ++
      [{ name := ".", rrtype := typeOPT, cls := 0, data := .opt (setSubnetOption address bits []) }] } := by
  rw [setClientSubnet, h]

/-- The laws, if the subnet is set in an OPT record that was there or is new. -/
lemma SubnetLens.of_split (opt : RR) (h : ∀ r ∈ pre ++ post, r.isOPT = false)
    (hm : opt.isOPT = true ∧ m.extra = pre ++ opt :: post ∨ opt.options = [] ∧ m.extra = pre ++ post)
    (hset : ∀ address bits, setClientSubnet m address bits =
      { m with extra := pre ++ { opt with data := .opt (setSubnetOption address bits opt.options) } :: post })
    (hbits : bits ≤ address.bitLen) (hmap : address.unmap = address) :
    SubnetLens m (setClientSubnet m address bits) address bits := by
  obtain ⟨herase, ⟨family, scope, rest, hfilter⟩, hagain⟩ := setSubnetOption_spec address bits opt.options
  obtain ⟨hpre, hpost⟩ := forall_mem_append.1 h
  have hnone {l : List RR} (hl : ∀ r ∈ l, r.isOPT = false) : l.flatMap RR.options = [] :=
    flatMap_eq_nil_iff.2 fun r hr => RR.options_of_not_isOPT (hl r hr)
  have hopts (options : List EDNS0) :
      (pre ++ { opt with data := .opt options } :: post).flatMap RR.options = options := by
    simp [hnone hpre, hnone hpost, RR.options]
  have hisOPT (options : List EDNS0) : RR.isOPT { opt with data := .opt options } = true := rfl
  rw [hset]
  refine ⟨?_, rfl, ?_, ?_, ?_, removeClientSubnet_removed _, fun address' bits' => ?_⟩
  · rw [countP_append, countP_cons_of_pos rfl, countP_eq_zero.2 (by simpa using hpre),
      countP_eq_zero.2 (by simpa using hpost)]
  · rcases hm with ⟨hopt, hm⟩ | ⟨-, hm⟩
    · simp [hm, hopt, hisOPT]
    · simp [hm, hisOPT]
  · rw [hopts, herase]
    rcases hm with ⟨-, hm⟩ | ⟨hnil, hm⟩
    · simp [hm, hnone hpre, hnone hpost]
    · simp [hm, hnone hpre, hnone hpost, hnil]
  · have hlt : bits < 2 ^ 8 := by
      cases address <;> simp only [Addr.bitLen] at hbits <;> omega
    rw [clientSubnetFromMessage, funext RR.subnets_eq, ← filter_flatMap, hopts, hfilter]
    simp only [Nat.mod_eq_of_lt hlt, hmap, Subnet.ofAddr, if_pos hbits]
  · rw [setClientSubnet_split h (hisOPT _) (.inl ?_) rfl, hset]
    · exact congrArg (fun o => { m with extra := pre ++ { opt with data := .opt o } :: post }) (hagain address' bits')
    · rw [RR.subnets_eq]
      exact hfilter ▸ cons_ne_nil _ _

/-- **Setting the client subnet is a lens exactly if the loop keeps the OPT record.**  The message itself is left as it
is in any case. -/
theorem client_subnet_lens (c : Copier) {h : Heap} {p : MsgPtr} (hp : h.Valid p)
    (hone : (h.load p).extra.countP RR.isOPT ≤ 1) (hbits : bits ≤ address.bitLen) (hmap : address.unmap = address) :
    let out := c.setClientSubnet address bits h p
    out.1.load p = h.load p ∧ (SubnetLens (h.load p) (out.1.load out.2) address bits ↔ (h.load p).KeepsOPT) := by
  intro out
  obtain ⟨hout, hkept⟩ := c.setClientSubnet_load address bits hp
  refine ⟨hkept, ?_⟩
  rw [hout]
  generalize h.load p = m at hone
  by_cases hopt : ∃ r ∈ m.extra, r.isOPT = true
  · obtain ⟨r, hr, hopt⟩ := hopt
    obtain ⟨pre, post, hm, hother⟩ := exists_split_isOPT hone hr hopt
    have hkeeps : m.KeepsOPT ↔ r.subnets ≠ [] ∨ post = [] := by
      refine ⟨fun hk => (hk r hr hopt).imp_right fun hlast => ?_, fun hfound r' hr' hopt' => ?_⟩
      · rcases eq_nil_or_concat' post with rfl | ⟨init, last, rfl⟩
        · rfl
        · rw [hm, ← cons_append, ← append_assoc, getLast?_concat] at hlast
          cases hlast
          simp [hother r (by simp)] at hopt
      · have hsame : r' = r := by
          by_contra hne
          have : r' ∈ pre ++ post := by simpa [hm, hne] using hr'
          simp [hother r' this] at hopt'
        exact hsame ▸ hfound.imp_right fun hpost => by simp [hm, hpost]
    rw [hkeeps]
    refine ⟨fun hlens => ?_, fun hfound => ?_⟩
    · by_contra hlost
      have hfind : findExists m.extra = none := by rw [hm, findExists_split hother hopt, if_neg hlost]
      have hcount := hlens.one
      rw [setClientSubnet_new hfind, hm, countP_append, countP_append, countP_cons_of_pos hopt,
        countP_cons_of_pos rfl] at hcount
      omega
    · exact .of_split r hother (.inl ⟨hopt, hm⟩) (setClientSubnet_split hother hopt hfound hm) hbits hmap
  · have hother : ∀ r ∈ m.extra, r.isOPT = false := by simpa using hopt
    have hfind : findExists m.extra = none :=
      findExists_none (findIdx?_subnets_none hother) fun r hr => hother r (mem_of_getLast? hr)
    refine iff_of_true ?_ fun r hr h => absurd h (by simp [hother r hr])
    exact .of_split { name := ".", rrtype := typeOPT, cls := 0, data := .opt [] } (by simpa using hother)
      (.inr ⟨rfl, (append_nil _).symm⟩) (setClientSubnet_new hfind) hbits hmap

/-- A query whose OPT record is followed by a record that signs it. -/
def signedQuery : Msg :=
  { extra := [{ name := ".", rrtype := typeOPT, data := .opt [] }, { rrtype := 250, data := .other [] }] }

/-- It is given a second OPT record. -/
theorem signedQuery_two_opt : signedQuery.extra.countP RR.isOPT = 1 ∧
    (setClientSubnet signedQuery (.v4 0x0a000000#32) 8).extra.countP RR.isOPT = 2 := by
  decide

/-- Copies at the end of the heap. -/
def deepCopy : Copier where
  copy h p := ({ record := fun i => if i < h.next then h.record i else h.record (p.extra.getD (i - h.next) 0)
                 next := h.next + p.extra.length }, { p with extra := range' h.next p.extra.length })
  keeps h p i hi := if_pos hi
  fresh h p i hi := (mem_range'_1.1 hi).1
  nodup h p := nodup_range'
  same h p := by
    simp only [Heap.load]
    congr 1
    refine ext_getElem (by simp) fun i _ hi => ?_
    rw [length_map] at hi
    simp [hi]

/-- A query whose OPT record comes last. -/
theorem client_subnet_lens_last :
    let h : Heap := ⟨fun i => if i = 0 then ⟨"", 250, 255, 0, .other []⟩ else ⟨".", typeOPT, 1232, 0, .opt []⟩, 2⟩
    let p : MsgPtr := ⟨{}, [0, 1]⟩
    let out := deepCopy.setClientSubnet (.v4 0x0a000000#32) 8 h p
    SubnetLens (h.load p) (out.1.load out.2) (.v4 0x0a000000#32) 8 :=
  (client_subnet_lens deepCopy (by unfold Heap.Valid; decide) (by decide) (by decide) rfl).2.2
    (by unfold Msg.KeepsOPT; decide)

end SingBox.Dns
