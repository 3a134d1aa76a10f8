import FrameStream.Proofs.Channel.Intake

/-!
# Who has the slot of a channel

A job that was started on a channel keeps the slot until it gives it back or the channel is closed. The book knows only
who holds a slot now; which jobs have had it and which have given it back is told by the jobs. `ChannelBook.Houses` says
how the two agree: nobody holds a slot but a job that has not given it back, and on an open channel every such job does.
So while a channel is open, all jobs on it but the latest have given the slot back.
-/

namespace FrameStream

/-- What the slot of a channel has to do with a job. -/
structure Tenant where
  conn : String
  channel : ChannelNumber
  id : JobId
  /-- The slot was given back. -/
  released : Bool

def ChannelJob.tenant (j : ChannelJob) : Tenant := ⟨j.conn, j.channel, j.id, j.released⟩

namespace ChannelBook

/-- The channel that is open under a name. -/
def channelOf? (b : ChannelBook) (conn : String) : Option ChannelNumber := (b.entries.get? conn).map (·.channel)

/-- The book agrees with the names of all connections and with all jobs, both in order, on who holds which slot. -/
structure Houses (b : ChannelBook) (names : List String) (tenants : List Tenant) : Prop where
  distinct : names.Nodup
  /-- A channel that is not in the book any more is closed. -/
  listed : ∀ n conn, names[n]? = some conn → b.channelOf? conn = some n ∨ (b.channelOf? conn = none ∧ b.closed n = true)
  home : ∀ t ∈ tenants, names[t.channel]? = some t.conn
  early : ∀ t ∈ tenants, t.id < b.nextId
  /-- Of two jobs on an open channel the earlier one has given the slot back. -/
  order : ∀ (i k : Nat) (t u : Tenant), i < k → tenants[i]? = some t → tenants[k]? = some u →
    t.id < u.id ∧ (t.channel = u.channel → b.closed t.channel = false → t.released = true)
  holder : ∀ conn a, b.holder? conn = some a → ∃ t ∈ tenants, t.conn = conn ∧ t.id = a.id ∧ t.released = false
  holds : ∀ t ∈ tenants, t.released = false → b.closed t.channel = false →
    ∃ key, b.holder? t.conn = some ⟨t.id, key⟩

variable {b b' b'' : ChannelBook} {names : List String} {tenants : List Tenant} {t u : Tenant} {conn key : String}
  {id : JobId} {n : ChannelNumber} {i k : Nat}

theorem Houses.eq_of_id (h : b.Houses names tenants) (ht : tenants[i]? = some t) (hu : tenants[k]? = some u)
    (hid : t.id = u.id) : i = k := by
  rcases Nat.lt_trichotomy i k with hlt | heq | hlt
  · exact absurd hid (Nat.ne_of_lt (h.order i k t u hlt ht hu).1)
  · exact heq
  · exact absurd hid.symm (Nat.ne_of_lt (h.order k i u t hlt hu ht).1)

/-! ## Channels that are closed and forgotten -/

/-- No slot is taken or given back; at most, channels are closed, and forgotten once they are. -/
structure Forgets (b b' : ChannelBook) : Prop where
  nextId : b'.nextId = b.nextId
  closed : ∀ n, b.closed n = true → b'.closed n = true
  entry : ∀ conn, b'.entries.get? conn = b.entries.get? conn ∨
    (b'.entries.get? conn = none ∧ ∀ n, b.channelOf? conn = some n → b'.closed n = true)

theorem Forgets.of_calm (hcalm : b.Calm b') (hnext : b'.nextId = b.nextId) (hentries : b'.entries = b.entries) :
    b.Forgets b' where
  nextId := hnext
  closed := hcalm.closed
  entry conn := .inl (by rw [hentries])

theorem Forgets.refl (b : ChannelBook) : b.Forgets b := .of_calm (.refl b) rfl rfl

theorem Forgets.trans (h : b.Forgets b') (h' : b'.Forgets b'') : b.Forgets b'' where
  nextId := h'.nextId.trans h.nextId
  closed n hn := h'.closed n (h.closed n hn)
  entry conn := by
    rcases h'.entry conn with hsame' | ⟨hnone', hclosed'⟩
    · rcases h.entry conn with hsame | ⟨hnone, hclosed⟩
      · exact .inl (hsame'.trans hsame)
      · exact .inr ⟨hsame'.trans hnone, fun n hn => h'.closed n (hclosed n hn)⟩
    · refine .inr ⟨hnone', fun n hn => ?_⟩
      rcases h.entry conn with hsame | ⟨-, hclosed⟩
      · exact hclosed' n (by rw [channelOf?, hsame]; exact hn)
      · exact h'.closed n (hclosed n hn)

theorem forgets_modify {f : Outbound → Outbound} (hf : ∀ o : Outbound, o.Calm (f o)) (b : ChannelBook)
    (n : ChannelNumber) : b.Forgets (b.modify n f) := .of_calm (calm_modify hf b n) rfl rfl

theorem forgets_close (b : ChannelBook) (conn : String) : b.Forgets (b.close conn).2 where
  nextId := nextId_close b conn
  closed := (b.calm_close conn).closed
  entry c := by
    rw [get?_close]
    split
    · rename_i hc
      refine .inr ⟨rfl, fun n hn => ?_⟩
      obtain ⟨e, he, rfl⟩ := Option.map_eq_some_iff.mp (hc ▸ hn)
      have hclose : (b.close conn).2 =
          ({ b with entries := b.entries.erase conn } : ChannelBook).modify e.channel fun o => o.cancel.dropSender := by
        simp only [close, he]
      rw [hclose]
      cases ho : b.channels[e.channel]? with
      | none => simp [ChannelBook.closed, channel?, modify, ho]
      | some o => simp [ChannelBook.closed, channel?, modify, ho, Outbound.closed, Outbound.cancel, Outbound.dropSender]
    · exact .inl rfl

theorem forgets_closeGuard (b : ChannelBook) (conn : String) (n : ChannelNumber) :
    b.Forgets (b.closeGuard conn n) := (forgets_modify Outbound.calm_cancel b n).trans ((b.cancel n).forgets_close conn)

/-- A change of all open channels that closes each of them closes it. -/
theorem closed_modifyOpen {f : Outbound → Outbound} (hcloses : ∀ o : Outbound, (f o).closed = true)
    (h : b.channelOf? conn = some n) : (b.modifyOpen f).closed n = true := by
  obtain ⟨e, he, rfl⟩ := Option.map_eq_some_iff.mp h
  unfold ChannelBook.closed channel?
  cases ho : (b.modifyOpen f).channels[e.channel]? with
  | none => rfl
  | some o => exact forall_modifyOpen (Q := fun o => o.closed = true) hcloses he o ho

theorem forgets_shutdownAll (b : ChannelBook) : b.Forgets b.shutdownAll where
  nextId := nextId_shutdownAll b
  closed := b.calm_shutdownAll.closed
  entry conn := by
    refine .inr ⟨rfl, fun n hn => ?_⟩
    refine closed_modifyOpen (f := fun o => (o.offer .close).cancel.dropSender) (fun o => ?_) hn
    simp [Outbound.closed, Outbound.cancel, Outbound.dropSender]

theorem forgets_pingAll (b : ChannelBook) : b.Forgets b.pingAll :=
  .of_calm b.calm_pingAll (nextId_modifyOpen b _) (entries_modifyOpen b _)

/-- A message that is handed to a queue is nothing to the slots. -/
theorem forgets_send (b : ChannelBook) (n : ChannelNumber) (ticket : Nat) (text : String) :
    b.Forgets (b.send n ticket text).2 where
  nextId := by
    unfold send
    split <;> rfl
  closed m hm := (closed_send b n ticket text m).trans hm
  entry conn := by
    refine .inl ?_
    unfold send
    split <;> rfl

theorem Forgets.holder? (h : b.Forgets b') {a : ActiveJob} (ha : b'.holder? conn = some a) :
    b.holder? conn = some a := by
  rcases h.entry conn with hsame | ⟨hnone, -⟩
  · rw [← ha, ChannelBook.holder?, ChannelBook.holder?, hsame]
  · rw [ChannelBook.holder?, hnone] at ha
    cases ha

theorem Houses.forgets (h : b.Houses names tenants) (hf : b.Forgets b') : b'.Houses names tenants where
  distinct := h.distinct
  listed n conn hn := by
    rcases hf.entry conn with hsame | ⟨hnone, hclosed⟩
    · have hchannel : b'.channelOf? conn = b.channelOf? conn := by rw [channelOf?, channelOf?, hsame]
      rw [hchannel]
      exact (h.listed n conn hn).imp_right fun ⟨hgone, hc⟩ => ⟨hgone, hf.closed n hc⟩
    · refine .inr ⟨by rw [channelOf?, hnone]; rfl, ?_⟩
      rcases h.listed n conn hn with hlisted | ⟨-, hc⟩
      · exact hclosed n hlisted
      · exact hf.closed n hc
  home := h.home
  early t ht := hf.nextId ▸ h.early t ht
  order i k t u hik ht hu := by
    refine ⟨(h.order i k t u hik ht hu).1, fun hsame hopen => (h.order i k t u hik ht hu).2 hsame ?_⟩
    exact Bool.eq_false_iff.mpr fun hc => by simp [hf.closed _ hc] at hopen
  holder conn a ha := h.holder conn a (hf.holder? ha)
  holds t ht hheld hopen := by
    have hopen' : b.closed t.channel = false := Bool.eq_false_iff.mpr fun hc => by simp [hf.closed _ hc] at hopen
    obtain ⟨key, hkey⟩ := h.holds t ht hheld hopen'
    refine ⟨key, ?_⟩
    rcases hf.entry t.conn with hsame | ⟨-, hclosed⟩
    · rw [ChannelBook.holder?, hsame]
      exact hkey
    · rcases h.listed t.channel t.conn (h.home t ht) with hlisted | ⟨-, hc⟩
      · rw [hclosed _ hlisted] at hopen
        cases hopen
      · rw [hc] at hopen'
        cases hopen'

/-! ## Opening, beginning and ending -/

theorem houses_nil (depth : Nat) : (ofDepth depth).Houses [] [] where
  distinct := List.nodup_nil
  listed _ _ h := nomatch h
  home _ h := nomatch h
  early _ h := nomatch h
  order _ _ _ _ _ h := nomatch h
  holder _ _ h := nomatch h
  holds _ h := nomatch h

theorem channelOf?_openChannel (b : ChannelBook) (conn c : String) :
    (b.openChannel conn).2.channelOf? c = if c = conn then some b.channels.length else b.channelOf? c := by
  unfold channelOf?
  rw [get?_openChannel]
  split <;> rfl

/-- A channel is opened under a new name, with the next number. -/
theorem Houses.opened (h : b.Houses names tenants) (hfresh : conn ∉ names)
    (hlength : b.channels.length = names.length) : (b.openChannel conn).2.Houses (names ++ [conn]) tenants := by
  have hlt : ∀ {n c}, names[n]? = some c → n < b.channels.length := fun hn =>
    hlength ▸ (List.getElem?_eq_some_iff.mp hn).1
  have hne : ∀ {n c}, names[n]? = some c → c ≠ conn := fun hn heq => hfresh (heq ▸ List.mem_of_getElem? hn)
  have hopen : ∀ t ∈ tenants, (b.openChannel conn).2.closed t.channel = false → b.closed t.channel = false :=
    fun t ht hopen => Bool.eq_false_iff.mpr fun hc => by
      simp [Docket.closed_openChannel (hlt (h.home t ht)) hc] at hopen
  refine ⟨?_, fun n c hn => ?_, fun t ht => ?_, fun t ht => ?_, fun i k t u hik ht hu => ?_, fun c a ha => ?_,
    fun t ht hheld hopened => ?_⟩
  · exact List.nodup_append.mpr ⟨h.distinct, List.nodup_singleton _, fun a ha c hc heq =>
      hfresh (List.mem_singleton.mp hc ▸ heq ▸ ha)⟩
  · rw [channelOf?_openChannel]
    rcases getElem?_concat_eq_some hn with hn | ⟨rfl, rfl⟩
    · rw [if_neg (hne hn)]
      exact (h.listed n c hn).imp_right fun ⟨hgone, hc⟩ => ⟨hgone, Docket.closed_openChannel (hlt hn) hc⟩
    · rw [if_pos rfl, hlength]
      exact .inl rfl
  · rw [List.getElem?_append_left (List.getElem?_eq_some_iff.mp (h.home t ht)).1]
    exact h.home t ht
  · rw [nextId_openChannel]
    exact h.early t ht
  · exact ⟨(h.order i k t u hik ht hu).1, fun hsame hopened =>
      (h.order i k t u hik ht hu).2 hsame (hopen t (List.mem_of_getElem? ht) hopened)⟩
  · rw [holder?_openChannel] at ha
    split at ha
    · cases ha
    · exact h.holder c a ha
  · rw [holder?_openChannel, if_neg (hne (h.home t ht))]
    exact h.holds t ht hheld (hopen t ht hopened)

/-- Taking and giving back the slot of a channel leaves the channel in the book as it was. -/
theorem channelOf?_insert {e : BookEntry} {a : Option ActiveJob} (he : b.entries.get? conn = some e)
    (hb : b'.entries = b.entries.insert conn { e with active := a }) (c : String) :
    b'.channelOf? c = b.channelOf? c := by
  unfold channelOf?
  rw [hb]
  by_cases hc : c = conn
  · simp [hc, he]
  · rw [NameTable.get?_insert_of_ne hc]

theorem closed_of_channels (h : b'.channels = b.channels) (n : ChannelNumber) : b'.closed n = b.closed n := by
  rw [ChannelBook.closed, ChannelBook.closed, channel?, channel?, h]

/-- The next job takes the empty slot of a channel. -/
theorem Houses.begun (h : b.Houses names tenants) (hn : names[n]? = some conn)
    (hbegin : b.beginJob conn key = .ok (id, b')) : b'.Houses names (tenants ++ [⟨conn, n, id, false⟩]) := by
  have hempty := (exists_beginJob_iff.mp ⟨id, b', hbegin⟩).2
  have hholder := holder?_beginJob hbegin
  obtain ⟨e, he, -, rfl, rfl⟩ := beginJob_eq_ok.mp hbegin
  have hchannel : ∀ c, ({ b with
      entries := b.entries.insert conn { e with active := some ⟨b.nextId, key⟩ }, nextId := b.nextId + 1 } :
        ChannelBook).channelOf? c = b.channelOf? c := channelOf?_insert he rfl
  have hne : ∀ t ∈ tenants, t.released = false → b.closed t.channel = false → t.conn ≠ conn := by
    intro t ht hheld hopen heq
    obtain ⟨key', hkey'⟩ := h.holds t ht hheld hopen
    rw [heq, hempty] at hkey'
    cases hkey'
  refine ⟨h.distinct, fun m c hm => ?_, fun t ht => ?_, fun t ht => ?_, fun i k t u hik ht hu => ?_,
    fun c a ha => ?_, fun t ht hheld hopen => ?_⟩
  · rw [hchannel]
    exact h.listed m c hm
  · rcases List.mem_append.mp ht with ht | ht
    · exact h.home t ht
    · exact List.mem_singleton.mp ht ▸ hn
  · rcases List.mem_append.mp ht with ht | ht
    · exact Nat.lt_succ_of_lt (h.early t ht)
    · exact List.mem_singleton.mp ht ▸ Nat.lt_succ_self _
  · have hlt := (List.getElem?_eq_some_iff.mp hu).1
    rw [List.length_append, List.length_singleton] at hlt
    rw [List.getElem?_append_left (by omega)] at ht
    rcases getElem?_concat_eq_some hu with hu | ⟨-, rfl⟩
    · exact h.order i k t u hik ht hu
    · have hmem := List.mem_of_getElem? ht
      refine ⟨h.early t hmem, fun hsame hopen => ?_⟩
      cases hheld : t.released with
      | true => rfl
      | false =>
        have hhome := h.home t hmem
        rw [hsame, hn] at hhome
        exact absurd (Option.some.inj hhome).symm (hne t hmem hheld hopen)
  · rw [hholder] at ha
    split at ha
    · rename_i hc
      cases ha
      exact ⟨_, List.mem_append_right _ (List.mem_singleton.mpr rfl), hc.symm, rfl, rfl⟩
    · obtain ⟨t, ht, hfacts⟩ := h.holder c a ha
      exact ⟨t, List.mem_append_left _ ht, hfacts⟩
  · rw [hholder]
    rcases List.mem_append.mp ht with ht | ht
    · rw [if_neg (hne t ht hheld hopen)]
      exact h.holds t ht hheld hopen
    · rw [List.mem_singleton.mp ht, if_pos rfl]
      exact ⟨key, rfl⟩

/-- A job that gives back the slot of a channel leaves all else in the book as it was. -/
theorem endJob_keeps (b : ChannelBook) (conn : String) (id : JobId) :
    (b.endJob conn id).2.nextId = b.nextId ∧ (∀ n, (b.endJob conn id).2.closed n = b.closed n) ∧
      ∀ c, (b.endJob conn id).2.channelOf? c = b.channelOf? c := by
  rcases hend : b.endJob conn id with ⟨_ | _, b'⟩
  · obtain ⟨-, rfl⟩ := endJob_eq_false.mp hend
    exact ⟨rfl, fun _ => rfl, fun _ => rfl⟩
  · obtain ⟨e, job, he, -, -, rfl⟩ := endJob_eq_true.mp hend
    exact ⟨rfl, fun n => closed_of_channels (by rfl) n, channelOf?_insert he rfl⟩

theorem holder?_endJob_iff {c : String} {a : ActiveJob} :
    (b.endJob conn id).2.holder? c = some a ↔ b.holder? c = some a ∧ (c = conn → a.id ≠ id) := by
  rcases hend : b.endJob conn id with ⟨_ | _, b'⟩
  · obtain ⟨hnot, rfl⟩ := endJob_eq_false.mp hend
    refine ⟨fun ha => ⟨ha, ?_⟩, And.left⟩
    rintro rfl
    exact hnot a ha
  · obtain ⟨e, job, he, hactive, hid, -⟩ := endJob_eq_true.mp hend
    rw [holder?_endJob hend]
    split
    · rename_i hc
      have hheld : b.holder? c = some job := by simp [ChannelBook.holder?, hc, he, hactive]
      constructor
      · intro hnone
        cases hnone
      · rintro ⟨ha, hne⟩
        rw [hheld] at ha
        cases ha
        exact absurd hid (hne hc)
    · rename_i hc
      exact ⟨fun ha => ⟨ha, fun heq => absurd heq hc⟩, And.left⟩

/-- What a job was before one of them gave back its slot. -/
theorem getElem?_release (ht : tenants[k]? = some t)
    (hu : (tenants.set k { t with released := true })[i]? = some u) :
    ∃ v : Tenant, tenants[i]? = some v ∧ u.conn = v.conn ∧ u.channel = v.channel ∧ u.id = v.id ∧
      (v.released = true → u.released = true) ∧ (u.released = false → i ≠ k ∧ u = v) := by
  rcases getElem?_set_eq_some hu with ⟨rfl, rfl⟩ | ⟨hne, hu⟩
  · exact ⟨t, ht, rfl, rfl, rfl, fun _ => rfl, nofun⟩
  · exact ⟨u, hu, rfl, rfl, rfl, id, fun _ => ⟨Ne.symm hne, rfl⟩⟩

/-- A job gives back the slot, or would if it still held it. -/
theorem Houses.ended (h : b.Houses names tenants) (ht : tenants[k]? = some t) :
    (b.endJob t.conn t.id).2.Houses names (tenants.set k { t with released := true }) := by
  obtain ⟨hnext, hclosed, hchannel⟩ := b.endJob_keeps t.conn t.id
  refine ⟨h.distinct, fun n c hn => ?_, fun u hu => ?_, fun u hu => ?_, fun i j u v hij hu hv => ?_, fun c a ha => ?_,
    fun u hu hheld hopen => ?_⟩
  · rw [hchannel, hclosed]
    exact h.listed n c hn
  · obtain ⟨i, hi⟩ := List.mem_iff_getElem?.mp hu
    obtain ⟨v, hv, hconn, hchan, -⟩ := getElem?_release ht hi
    rw [hconn, hchan]
    exact h.home v (List.mem_of_getElem? hv)
  · obtain ⟨i, hi⟩ := List.mem_iff_getElem?.mp hu
    obtain ⟨v, hv, -, -, hid, -⟩ := getElem?_release ht hi
    rw [hnext, hid]
    exact h.early v (List.mem_of_getElem? hv)
  · obtain ⟨u₀, hu₀, -, hchan, hid, hreleased, -⟩ := getElem?_release ht hu
    obtain ⟨v₀, hv₀, -, hchan', hid', -⟩ := getElem?_release ht hv
    obtain ⟨hless, hgiven⟩ := h.order i j u₀ v₀ hij hu₀ hv₀
    rw [hid, hid', hchan, hchan', hclosed]
    exact ⟨hless, fun hsame hopen => hreleased (hgiven hsame hopen)⟩
  · obtain ⟨hheld, hne⟩ := holder?_endJob_iff.mp ha
    obtain ⟨u, hu, hconn, hid, hkept⟩ := h.holder c a hheld
    obtain ⟨i, hi⟩ := List.mem_iff_getElem?.mp hu
    have hik : k ≠ i := by
      rintro rfl
      rw [ht] at hi
      cases hi
      exact hne hconn.symm hid.symm
    exact ⟨u, List.mem_of_getElem? ((List.getElem?_set_ne hik).trans hi), hconn, hid, hkept⟩
  · obtain ⟨i, hi⟩ := List.mem_iff_getElem?.mp hu
    obtain ⟨v, hv, -, -, -, -, hkept⟩ := getElem?_release ht hi
    obtain ⟨hik, rfl⟩ := hkept hheld
    obtain ⟨key, hkey⟩ := h.holds u (List.mem_of_getElem? hv) hheld (hclosed u.channel ▸ hopen)
    exact ⟨key, holder?_endJob_iff.mpr ⟨hkey, fun _ hid => hik (h.eq_of_id hv ht hid)⟩⟩

end ChannelBook

/-- A property of all elements that is the same for the one that comes in. -/
theorem map_set_of_eq {α β : Type} {f : α → β} {xs : List α} {k : Nat} {x a : α} (hx : xs[k]? = some x)
    (h : f a = f x) : (xs.set k a).map f = xs.map f := by
  refine List.ext_getElem? fun i => ?_
  rw [List.getElem?_map, List.getElem?_map]
  by_cases hik : k = i
  · subst hik
    rw [List.getElem?_set_self (List.getElem?_eq_some_iff.mp hx).1, hx]
    exact congrArg some h
  · rw [List.getElem?_set_ne hik]

/-! ## Steps that leave the slots alone -/

theorem forgets_leave (c : Connection) (b : ChannelBook) : b.Forgets (c.leave b).2 :=
  (b.forgets_closeGuard c.conn c.channel).trans (ChannelBook.forgets_modify Outbound.calm_dropSender _ c.channel)

theorem forgets_stop (c : Connection) (b : ChannelBook) : b.Forgets (c.stop b).2 :=
  ChannelBook.forgets_modify Outbound.calm_dropReceiver b c.channel

theorem forgets_set {b : ChannelBook} {o o' : Outbound} {m : ChannelNumber} (ho : b.channels[m]? = some o)
    (hclosed : o'.closed = o.closed) : b.Forgets (b.modify m fun _ => o') where
  nextId := rfl
  closed n hn := (ChannelBook.closed_set ho hclosed n).trans hn
  entry _ := .inl rfl

/-- No slot can be taken or given back. -/
def ServerEvent.leavesSlots : ServerEvent → Bool
  | .accepted _ | .taken _ | .sent _ | .retired _ => false
  | _ => true

/-- The name of a connection that is accepted. -/
def ServerEvent.name? : ServerEvent → Option String
  | .accepted conn => some conn
  | _ => none

namespace ChannelServer

/-- The names of all connections. -/
def names (s : ChannelServer) : List String := s.connections.map (·.conn)

def tenants (s : ChannelServer) : List Tenant := s.jobs.map ChannelJob.tenant

/-- Book, connections and jobs agree on who holds which slot. -/
def Housed (s : ChannelServer) : Prop := s.book.Houses s.names s.tenants

/-- Nothing that has to do with slots happens, but that channels are closed and forgotten. -/
structure Idles (s s' : ChannelServer) : Prop where
  names : s'.names = s.names
  tenants : s'.tenants = s.tenants
  book : s.book.Forgets s'.book

variable {s s' : ChannelServer} {e : ServerEvent} {n k : Nat} {j j' : ChannelJob}

theorem Housed.idle (h : s.Housed) (hidles : s.Idles s') : s'.Housed := by
  have hhouses := ChannelBook.Houses.forgets h hidles.book
  rw [← hidles.names, ← hidles.tenants] at hhouses
  exact hhouses

theorem idles_refused (hs : s.step? (.refused n) = some s') : s.Idles s' := by
  obtain ⟨c, m, hc, -, rfl⟩ := step?_refused hs
  refine ⟨map_set_of_eq hc ?_, rfl, ChannelBook.forgets_send ..⟩
  cases (s.book.send c.channel s.nextTicket m.text).1 <;> rfl

theorem idles_left (hs : s.step? (.left n) = some s') : s.Idles s' := by
  obtain ⟨c, changed, hc, hstep, rfl⟩ := onConnection?_eq_some hs
  unfold Connection.leaveIfCancelled? at hstep
  split at hstep
  · simp only [Option.ite_none_right_eq_some, Option.some.injEq] at hstep
    obtain ⟨-, rfl⟩ := hstep
    exact ⟨map_set_of_eq hc rfl, rfl, forgets_leave c _⟩
  · cases hstep

theorem idles_forwarded (hs : s.step? (.forwarded n) = some s') : s.Idles s' := by
  obtain ⟨c, hc, -, ⟨f, o, o', ho, htake, rfl⟩ | ⟨-, rfl⟩⟩ := step?_forwarded hs
  · obtain ⟨rest, -, rfl⟩ := Outbound.take?_eq_some.mp htake
    exact ⟨map_set_of_eq hc rfl, rfl, forgets_set ho rfl⟩
  · exact ⟨map_set_of_eq hc rfl, rfl, forgets_stop c _⟩

theorem idles_written (hs : s.step? (.written n) = some s') : s.Idles s' := by
  obtain ⟨c, f, hc, hforwarding, rfl⟩ := step?_written hs
  unfold Connection.written
  rw [hforwarding]
  cases f with
  | close => exact ⟨map_set_of_eq hc rfl, rfl, forgets_stop c _⟩
  | _ => exact ⟨map_set_of_eq hc rfl, rfl, .refl _⟩

theorem idles_writeFailed (hs : s.step? (.writeFailed n) = some s') : s.Idles s' := by
  simp only [step?, Option.ite_none_right_eq_some, Option.some.injEq] at hs
  obtain ⟨hsome, rfl⟩ := hs
  obtain ⟨f, hf⟩ := Option.isSome_iff_exists.mp hsome
  obtain ⟨c, hc, -⟩ := Option.bind_eq_some_iff.mp hf
  rw [writeFailed, onConnection?_getD hc]
  have hcancel := ChannelBook.forgets_modify Outbound.calm_cancel s.book c.channel
  exact ⟨map_set_of_eq hc rfl, rfl, hcancel.trans (forgets_stop c _)⟩

theorem idles_stopped (hs : s.step? (.stopped n) = some s') : s.Idles s' := by
  simp only [step?, Option.ite_none_right_eq_some, Option.some.injEq] at hs
  obtain ⟨hlt, rfl⟩ := hs
  have hc := List.getElem?_eq_getElem hlt
  rw [stop, onConnection?_getD hc]
  exact ⟨map_set_of_eq hc rfl, rfl, forgets_stop _ _⟩

/-- Whoever learns what came of a message keeps name and slot. -/
theorem idles_resumed (hs : s.step? (.resumed n) = some s') : s.Idles s' := by
  obtain ⟨o, ticket, delivered, o', ho, hresume, rfl⟩ := step?_resumed hs
  obtain ⟨text, rest, -, hcases⟩ := Outbound.resume?_eq_some.mp hresume
  have hsame : o'.closed = o.closed := by rcases hcases with ⟨-, -, rfl⟩ | ⟨-, -, -, rfl⟩ <;> rfl
  refine ⟨?_, ?_, forgets_set ho hsame⟩
  · refine (List.map_map ..).trans (List.map_congr_left fun c _ => ?_)
    simp only [Function.comp_apply]
    split
    · split <;> rfl
    · rfl
  · refine (List.map_map ..).trans (List.map_congr_left fun j _ => ?_)
    simp only [Function.comp_apply]
    split <;> rfl

theorem idles_step (hs : s.step? e = some s') (he : e.leavesSlots = true) : s.Idles s' := by
  cases e with
  | arrived n i =>
    obtain ⟨c, hc, rfl⟩ := step?_arrived hs
    exact ⟨map_set_of_eq hc rfl, rfl, .refl _⟩
  | refused n => exact idles_refused hs
  | left n => exact idles_left hs
  | forwarded n => exact idles_forwarded hs
  | written n => exact idles_written hs
  | writeFailed n => exact idles_writeFailed hs
  | stopped n => exact idles_stopped hs
  | moved k m =>
    obtain ⟨j, hj, rfl⟩ := step?_moved hs
    exact ⟨rfl, map_set_of_eq hj rfl, .refl _⟩
  | resumed n => exact idles_resumed hs
  | pinged =>
    cases hs
    exact ⟨rfl, rfl, ChannelBook.forgets_pingAll _⟩
  | shutDown =>
    cases hs
    exact ⟨rfl, rfl, ChannelBook.forgets_shutdownAll _⟩
  | closed conn =>
    cases hs
    exact ⟨rfl, rfl, ChannelBook.forgets_close _ conn⟩
  | _ => cases he

/-! ## Steps that concern slots -/

/-- A job gives back its slot. -/
theorem Housed.released (h : s.Housed) (hj : s.jobs[k]? = some j)
    (hj' : j'.tenant = { j.tenant with released := true }) (hjobs : s'.jobs = s.jobs.set k j')
    (hnames : s'.names = s.names) (hf : (s.book.endJob j.conn j.id).2.Forgets s'.book) : s'.Housed := by
  have htenant : s.tenants[k]? = some j.tenant := by simp [tenants, hj]
  have hended := (ChannelBook.Houses.ended h htenant).forgets hf
  have htenants : s'.tenants = s.tenants.set k { j.tenant with released := true } := by
    rw [tenants, hjobs, List.map_set, hj']
    rfl
  rw [Housed, hnames, htenants]
  exact hended

/-- A job that retires gives back its slot and lets go of the channel. -/
theorem Housed.retired (h : s.Housed) (hs : s.step? (.retired k) = some s') : s'.Housed := by
  simp only [step?, retire?] at hs
  split at hs
  · rename_i j hj
    obtain ⟨changed, hretire, rfl⟩ := Option.map_eq_some_iff.mp hs
    simp only [ChannelJob.retire?, Option.ite_none_right_eq_some, Option.some.injEq] at hretire
    obtain ⟨-, rfl⟩ := hretire
    exact h.released hj rfl rfl rfl (ChannelBook.forgets_modify Outbound.calm_dropSender _ j.channel)
  · cases hs

theorem Housed.sent (h : s.Housed) (hs : s.step? (.sent k) = some s') : s'.Housed := by
  obtain ⟨j, m, hj, -, -, ⟨-, -, rfl⟩ | ⟨-, rfl⟩⟩ := step?_sent hs
  · exact h.released hj rfl rfl rfl (.refl _)
  · refine h.idle ⟨rfl, map_set_of_eq hj ?_, ChannelBook.forgets_send ..⟩
    cases (s.book.send j.channel s.nextTicket m.text).1 <;> rfl

theorem Housed.accepted (h : s.Housed) (hlength : s.book.channels.length = s.connections.length) {conn : String}
    (hs : s.step? (.accepted conn) = some s') : s'.Housed := by
  simp only [step?, Option.ite_none_left_eq_some, Option.some.injEq] at hs
  obtain ⟨hfresh, rfl⟩ := hs
  have hnew : conn ∉ s.names := by
    intro hmem
    obtain ⟨c, hc, rfl⟩ := List.mem_map.mp hmem
    exact hfresh (List.any_eq_true.mpr ⟨c, hc, by simp⟩)
  have hopened := ChannelBook.Houses.opened h hnew (hlength.trans (List.length_map _).symm)
  simpa [Housed, names, tenants, accept] using hopened

/-! ## Every step -/

/-- A connection keeps its name, and one that is accepted comes with its own. -/
theorem names_step (hs : s.step? e = some s') : s'.names = s.names ++ e.name?.toList := by
  cases he : e.leavesSlots with
  | true =>
    have hname : e.name? = none := by cases e <;> first | rfl | cases he
    rw [(idles_step hs he).names, hname]
    exact (List.append_nil _).symm
  | false =>
    cases e with
    | accepted conn =>
      obtain rfl := step?_accepted hs
      simp [names, accept, ServerEvent.name?]
    | taken n =>
      obtain ⟨c, i, c', b, job, hc, -, htakes, rfl⟩ := step?_taken hs
      have hconn : c'.conn = c.conn := by cases htakes <;> rfl
      exact (map_set_of_eq hc hconn).trans (List.append_nil _).symm
    | sent k =>
      obtain ⟨j, m, -, -, -, ⟨-, -, rfl⟩ | ⟨-, rfl⟩⟩ := step?_sent hs <;> exact (List.append_nil _).symm
    | retired k =>
      simp only [step?, retire?] at hs
      split at hs
      · obtain ⟨changed, -, rfl⟩ := Option.map_eq_some_iff.mp hs
        exact (List.append_nil _).symm
      · cases hs
    | _ => cases he

end ChannelServer

namespace Docket

variable {d : Docket} {s : ChannelServer} {e : ServerEvent} {n k : Nat}

theorem housed_taken (h : d.server.Housed) (hwired : d.Wired) (hs : d.server.step? (.taken n) = some s) :
    s.Housed := by
  obtain ⟨c, i, c', b, job, hc, -, htakes, rfl⟩ := ChannelServer.step?_taken hs
  have hnames : ∀ c' : Connection, c'.conn = c.conn →
      (d.server.connections.set n c').map (·.conn) = d.server.names := fun _ heq => map_set_of_eq hc heq
  cases htakes with
  | parted _ rest next parting =>
    refine h.idle ⟨hnames _ rfl, ?_, forgets_leave _ d.server.book⟩
    simp [ChannelServer.tenants]
  | skipped _ rest next other =>
    refine h.idle ⟨hnames _ rfl, ?_, .refl d.server.book⟩
    simp [ChannelServer.tenants]
  | declined text rest m next declines =>
    refine h.idle ⟨hnames _ rfl, ?_, .refl d.server.book⟩
    simp [ChannelServer.tenants]
  | started text rest r id b' next parsed begun =>
    have hname : d.server.names[n]? = some c.conn := by simp [ChannelServer.names, hc]
    have hbegun := (ChannelBook.Houses.begun h hname begun).forgets
      (ChannelBook.forgets_modify Outbound.calm_addSender b' c.channel)
    rw [← hwired.channel n c hc, ← hnames { c with inbound := rest } rfl] at hbegun
    simpa [ChannelServer.Housed, ChannelServer.names, ChannelServer.tenants, ChannelJob.tenant] using hbegun

theorem housed_step (h : d.server.Housed) (hwired : d.Wired) (hs : d.server.step? e = some s) : s.Housed := by
  cases he : e.leavesSlots with
  | true => exact h.idle (ChannelServer.idles_step hs he)
  | false =>
    cases e with
    | accepted conn => exact h.accepted hwired.channels hs
    | taken n => exact housed_taken h hwired hs
    | sent k => exact h.sent hs
    | retired k => exact h.retired hs
    | _ => cases he

end Docket
end FrameStream
