import FrameStream.Proofs.Channel.Tenure
import FrameStream.Proofs.Channel.Workshop
import FrameStream.Proofs.Leads
import FrameStream.Proofs.Rehearsal.Runs
import FrameStream.Rehearsal.Serving

/-!
# Rehearsals of a server are workshops

A rehearsal of a server keeps a clock, fixes which of several moves comes first, and carries the frames that are written
to the clients. Each of its moves is some events of the workshop it stands for, or none: what happens on a line between
the server and a client, and that time goes by, is nothing to the workshop. Whatever a client has seen was forwarded to
it, in that order.
-/

namespace FrameStream

/-- A forwarding loop that has taken a frame is about to write it. -/
theorem Docket.forwarded_of_frame {d d' : Docket} {n : Nat} {f : OutFrame} (hs : d.step? (.forwarded n) = some d')
    (hf : (d'.server.connections[n]?).bind Connection.frame? = some f) :
    d'.forwarded n = d.forwarded n ++ [f] := by
  obtain ⟨s, hstep, rfl⟩ := step?_eq_some hs
  obtain ⟨c, hc, -, ⟨f', o, o', ho, htake, rfl⟩ | ⟨-, rfl⟩⟩ := ChannelServer.step?_forwarded hstep
  · have hlt := (List.getElem?_eq_some_iff.mp hc).1
    simp only [List.getElem?_set_self hlt, Option.bind_some, Connection.frame?, Option.some.injEq] at hf
    subst hf
    simp [note, hc, ChannelBook.take?, ChannelBook.channel?, ho, htake]
  · have hlt := (List.getElem?_eq_some_iff.mp hc).1
    simp [ChannelServer.setConnection, List.getElem?_set_self hlt, Connection.stop, Connection.frame?] at hf

/-- No two numbers are written alike. -/
theorem eq_of_toString_eq {m n : Nat} (h : toString m = toString n) : m = n := by
  have hwritten : String.ofList (Nat.toDigits 10 m) = String.ofList (Nat.toDigits 10 n) := by
    rw [← Nat.repr_eq_ofList_toDigits, ← Nat.repr_eq_ofList_toDigits]
    exact h
  have hdigits : Nat.toDigits 10 m = Nat.toDigits 10 n := String.ofList_inj.mp hwritten
  rw [← Nat.ofDigitChars_ten_toDigits (n := m), hdigits, Nat.ofDigitChars_ten_toDigits]

namespace ChannelServer

variable {s s' : ChannelServer} {e : ServerEvent}

theorem setPhase_self {k : Nat} {j : ChannelJob} (hj : s.jobs[k]? = some j) : s.setPhase k j.phase = s := by
  have hset : s.jobs.set k j = s.jobs := by
    obtain ⟨hlt, rfl⟩ := List.getElem?_eq_some_iff.mp hj
    exact List.set_getElem_self hlt
  rw [setPhase, List.modify_eq_set_getElem?, hj]
  exact congrArg (fun jobs => { s with jobs }) hset

/-- Every connection was accepted under its number. -/
def Numbered (s : ChannelServer) : Prop := s.names = (List.range s.connections.length).map toString

/-- No connection has the number of the next as its name. -/
theorem Numbered.unnamed (h : s.Numbered) : ¬ s.connections.any (·.conn = toString s.connections.length) = true := by
  intro htaken
  obtain ⟨c, hc, hconn⟩ := List.any_eq_true.mp htaken
  have hmem : c.conn ∈ s.names := List.mem_map_of_mem hc
  rw [h] at hmem
  obtain ⟨i, hi, hname⟩ := List.mem_map.mp hmem
  have hsame : i = s.connections.length := eq_of_toString_eq (hname.trans (of_decide_eq_true hconn))
  exact Nat.lt_irrefl _ (hsame ▸ List.mem_range.mp hi)

/-- A step keeps the numbers, if a connection that it accepts gets the next one. -/
theorem Numbered.step (h : s.Numbered) (hs : s.step? e = some s')
    (hname : e.name? = none ∨ e.name? = some (toString s.connections.length)) : s'.Numbered := by
  have hlength : s'.connections.length = s.connections.length + e.name?.toList.length := by
    simpa [names] using congrArg List.length (names_step hs)
  rw [Numbered, names_step hs, hlength, h]
  rcases hname with hname | hname
  · simp [hname]
  · simp [hname, List.range_succ]

end ChannelServer

namespace Rehearsal

def ClientFrame.text? : ClientFrame → Option String
  | .text t => some t
  | _ => none

theorem ClientFrame.text?_ofOut (f : OutFrame) : (ofOut f).text? = f.text? := by
  cases f <;> rfl

namespace Line

/-- The texts on a line: what its client has seen, what is in the pipe, and what has stayed behind. -/
def texts (l : Line) : List String := (l.seen ++ l.held ++ l.unwritten.map (·.1)).filterMap ClientFrame.text?

theorem pour_frames (capacity : Nat) : ∀ (frames : List (ClientFrame × Nat)) (used : Nat),
    (pour capacity used frames).1 ++ (pour capacity used frames).2.2.map (·.1) = frames.map (·.1)
  | [], used => rfl
  | (f, missing) :: rest, used => by
    unfold pour
    split
    · exact congrArg (f :: ·) (pour_frames capacity rest (used + missing))
    · rfl

/-- However the frames go on, none is lost and none overtakes another. -/
theorem texts_flow (l : Line) : l.flow.texts = l.texts := by
  unfold flow
  split
  · simp [texts]
  · simp only [texts, ← pour_frames l.capacity l.unwritten l.used, List.append_assoc]

theorem texts_write (l : Line) (f : ClientFrame) : (l.write f).texts = l.texts ++ f.text?.toList := by
  rw [write, texts_flow]
  cases hf : f.text? <;> simp [texts, hf]

theorem texts_listen (l : Line) : l.listen.texts = l.texts := texts_flow _

/-- When the connection is over, what stayed behind is lost. -/
theorem texts_finish (l : Line) : l.finish.texts.Sublist l.texts := by
  have hfinish : l.finish.texts = (l.seen ++ l.held).filterMap ClientFrame.text? := by
    unfold finish
    simp only
    split <;> simp [texts, List.filterMap_cons, ClientFrame.text?]
  rw [hfinish]
  exact (List.sublist_append_left (l.seen ++ l.held) (l.unwritten.map (·.1))).filterMap ClientFrame.text?

/-- What the receive loop answers by itself is no text. -/
theorem texts_hear (c : Connection) (l : Line) (i : Inbound) : (Serving.hear c l i).texts = l.texts := by
  unfold Serving.hear
  split
  · split
    · rfl
    · exact (texts_write l _).trans (List.append_nil _)
  · split
    · exact (texts_write _ _).trans (List.append_nil _)
    · rfl
  · rfl

end Line

/-- The texts that the forwarding loop of a connection has taken. -/
def textsTo (v : Workshop) (n : Nat) : List String := (v.docket.forwarded n).filterMap OutFrame.text?

/-- What a report says of a workshop: how many channels are open, and that what a client has seen was forwarded on one
connection, in that order. -/
structure ServingReport.Tells (report : ServingReport) (v : Workshop) : Prop where
  channels : report.channels = v.docket.server.book.count
  seen : ∀ client frames, (client, frames) ∈ report.seen →
    ∃ n, (frames.filterMap ClientFrame.text?).Sublist (textsTo v n)

namespace Serving

/-- The rehearsal stands for this workshop: each connection was accepted under its number, and what is on its line was
forwarded to it. -/
structure Shows (setting : Setting) (w : Serving) (v : Workshop) : Prop where
  kept : v.Kept setting.config setting.registry
  server : v.docket.server = w.server
  pool : v.pool = w.shared.pool
  source : v.source = fun _ => setting.opens
  numbered : w.server.Numbered
  carried : ∀ (n : Nat) (l : Line), w.lines[n]? = some l → l.texts.Sublist (textsTo v n)

/-- What comes about in a rehearsal comes about in every workshop that it stands for. -/
def Follows (setting : Setting) (w w' : Serving) : Prop :=
  ∀ v, w.Shows setting v → ∃ v', Leads Workshop.step? v v' ∧ w'.Shows setting v'

variable {setting : Setting} {w w' w'' : Serving} {v v' : Workshop} {e : ServerEvent} {s : ChannelServer} {n k : Nat}

theorem Follows.refl (w : Serving) : w.Follows setting w := fun v h => ⟨v, .refl v, h⟩

theorem Follows.trans (h : w.Follows setting w') (h' : w'.Follows setting w'') : w.Follows setting w'' := by
  intro v hv
  obtain ⟨v₁, hleads, hv₁⟩ := h v hv
  obtain ⟨v₂, hleads', hv₂⟩ := h' v₁ hv₁
  exact ⟨v₂, hleads.trans hleads', hv₂⟩

/-- The clock, the delays, the log and who the clients are is nothing to a workshop. -/
theorem Shows.of_eq (h : w.Shows setting v) (hserver : w'.server = w.server) (hpool : w'.shared.pool = w.shared.pool)
    (hlines : w'.lines = w.lines) : w'.Shows setting v where
  kept := h.kept
  server := h.server.trans hserver.symm
  pool := h.pool.trans hpool.symm
  source := h.source
  numbered := hserver ▸ h.numbered
  carried := hlines ▸ h.carried

theorem Follows.of_eq (h : w.Follows setting w') (hserver : w''.server = w'.server)
    (hpool : w''.shared.pool = w'.shared.pool) (hlines : w''.lines = w'.lines) : w.Follows setting w'' := by
  intro v hv
  obtain ⟨v', hleads, hv'⟩ := h v hv
  exact ⟨v', hleads, hv'.of_eq hserver hpool hlines⟩

/-! ## Lines -/

/-- What was forwarded stays so. -/
theorem textsTo_step {e : WorkshopEvent} (hs : v.step? e = some v') (n : Nat) : textsTo v n <+: textsTo v' n :=
  ((Workshop.extends_step hs).forwarded n).filterMap OutFrame.text?

theorem Shows.modifyLine (h : w.Shows setting v) {f : Line → Line}
    (hf : ∀ l, w.lines[n]? = some l → (f l).texts.Sublist (textsTo v n)) : (w.modifyLine n f).Shows setting v where
  kept := h.kept
  server := h.server
  pool := h.pool
  source := h.source
  numbered := h.numbered
  carried m l hl := by
    rw [Serving.modifyLine, List.getElem?_modify] at hl
    obtain ⟨l₀, hl₀, rfl⟩ := Option.map_eq_some_iff.mp hl
    split
    · rename_i hnm
      subst hnm
      exact hf l₀ hl₀
    · exact h.carried m l₀ hl₀

/-- A line that carries no more than before. -/
theorem follows_modifyLine (w : Serving) (n : Nat) {f : Line → Line} (hf : ∀ l, (f l).texts.Sublist l.texts) :
    w.Follows setting (w.modifyLine n f) :=
  fun v h => ⟨v, .refl v, h.modifyLine fun l hl => (hf l).trans (h.carried n l hl)⟩

/-! ## Events -/

/-- What the server does by itself, it does in the workshop, with what there is to note. -/
theorem Shows.exists_step (h : w.Shows setting v) (hs : w.server.step? e = some s) (hmove : e.isMove = false) :
    ∃ d, v.docket.step? e = some d ∧ v.step? (.server e) = some { v with docket := d } ∧ d.server = s := by
  rw [← h.server, ← Docket.server_step?] at hs
  obtain ⟨d, hd, rfl⟩ := Option.map_eq_some_iff.mp hs
  exact ⟨d, hd, by simp [Workshop.step?, hmove, hd], rfl⟩

theorem Shows.of_step {e : WorkshopEvent} (h : w.Shows setting v) (hs : v.step? e = some v')
    (hserver : v'.docket.server = s) (hpool : v'.pool = w.shared.pool)
    (hnumbered : s.Numbered) : Shows setting { w with server := s } v' where
  kept := h.kept.step hs
  server := hserver
  pool := hpool
  source := (Workshop.source_step hs).trans h.source
  numbered := hnumbered
  carried n l hl := (h.carried n l hl).trans (textsTo_step hs n).sublist

/-- A step of the server that neither is a move of a job nor accepts a connection. -/
theorem follows_server (hs : w.server.step? e = some s) (hmove : e.isMove = false) (hname : e.name? = none) :
    w.Follows setting { w with server := s } := by
  intro v h
  obtain ⟨d, -, hstep, hserver⟩ := h.exists_step hs hmove
  exact ⟨_, .one hstep, h.of_step hstep hserver h.pool (h.numbered.step hs (.inl hname))⟩

/-- A move of the pool. -/
theorem follows_shared {shared : Shared} (hs : w.shared.move? setting w.now = some shared) :
    w.Follows setting { w with shared } := by
  intro v h
  obtain ⟨e, -, hpool⟩ := pool_of_move hs
  rw [← h.pool] at hpool
  have hstep : v.step? (.pool e) = some { v with pool := shared.pool } := by
    rw [Workshop.step?, hpool]
    rfl
  exact ⟨_, .one hstep, h.kept.step hstep, h.server, rfl, h.source, h.numbered, h.carried⟩

/-! ## Connections -/

theorem follows_writeFailed {c : Connection} {f : OutFrame} (hc : w.server.connections[n]? = some c)
    (hf : c.frame? = some f) : w.Follows setting { w with server := w.server.writeFailed n } :=
  follows_server (e := .writeFailed n) (by simp [ChannelServer.step?, hc, hf]) rfl rfl

/-- A frame that is taken is written to the line, unless that is broken. -/
theorem follows_forward {l : Line} (hforward : w.forward? n l = some w') : w.Follows setting w' := by
  obtain ⟨server, hs, rfl⟩ := Option.map_eq_some_iff.mp hforward
  have hstep : w.server.step? (.forwarded n) = some server := hs
  split
  · rename_i f hframe
    obtain ⟨c, hc, hwriting⟩ := Option.bind_eq_some_iff.mp hframe
    split
    · exact (follows_server hstep rfl rfl).trans (follows_writeFailed (w := { w with server }) hc hwriting)
    · intro v h
      obtain ⟨d, hd, hv, hserver⟩ := h.exists_step hstep rfl
      have hshows := h.of_step hv hserver h.pool (h.numbered.step hstep (.inl rfl))
      refine ⟨_, .one hv, hshows.modifyLine fun l' hl' => ?_⟩
      have hforwarded : d.forwarded n = v.docket.forwarded n ++ [f] :=
        Docket.forwarded_of_frame hd (hserver ▸ hframe)
      have htexts : textsTo { v with docket := d } n = textsTo v n ++ f.text?.toList := by
        rw [textsTo, hforwarded, List.filterMap_append, textsTo]
        cases hf : f.text? <;> simp [hf]
      rw [Line.texts_write, ClientFrame.text?_ofOut, htexts]
      exact (h.carried n l' hl').append (List.Sublist.refl _)
  · exact follows_server hstep rfl rfl

theorem follows_forwarding {c : Connection} {l : Line} (hc : w.server.connections[n]? = some c)
    (hm : w.moveForwarding? n c l = some w') : w.Follows setting w' := by
  unfold moveForwarding? at hm
  split at hm
  · exact follows_forward hm
  · rename_i f hwriting
    have hframe : c.frame? = some f := by simp [Connection.frame?, hwriting]
    split at hm
    · cases hm
      exact follows_writeFailed hc hframe
    · split at hm
      · cases hm
      · cases hm
        exact follows_server (e := .written n) (by simp [ChannelServer.step?, hc, hframe]) rfl rfl
  · cases hm

theorem follows_receiving {c : Connection} (hm : w.moveReceiving? n c = some w') : w.Follows setting w' := by
  unfold moveReceiving? at hm
  split at hm
  · rename_i server hleave
    cases hm
    exact follows_server (e := .left n) hleave rfl rfl
  · split at hm
    · rename_i server hrefuse
      cases hm
      exact follows_server (e := .refused n) hrefuse rfl rfl
    · obtain ⟨⟨i, server⟩, htake, rfl⟩ := Option.map_eq_some_iff.mp hm
      have hstep : w.server.step? (.taken n) = some server := by simp [ChannelServer.step?, htake]
      exact (follows_server hstep rfl rfl).trans
        (follows_modifyLine _ n fun l => (Line.texts_hear c l i).symm ▸ List.Sublist.refl _)

theorem follows_end {c : Connection} {l : Line} (hc : w.server.connections[n]? = some c)
    (hm : w.moveEnd? n c l = some w') : w.Follows setting w' := by
  unfold moveEnd? at hm
  split at hm
  · split at hm
    · cases hm
      exact follows_modifyLine w n Line.texts_finish
    · cases hm
  · split at hm
    · cases hm
      exact follows_modifyLine w n fun l => List.Sublist.refl _
    · split at hm
      · cases hm
        have hlt := (List.getElem?_eq_some_iff.mp hc).1
        exact follows_server (e := .stopped n) (if_pos hlt) rfl rfl
      · cases hm
    · cases hm

theorem follows_connection (hm : w.moveConnection? n = some w') : w.Follows setting w' := by
  unfold moveConnection? at hm
  split at hm
  · rename_i c l hc _
    split at hm
    · rename_i u hforwarding
      cases hm
      exact follows_forwarding hc hforwarding
    · split at hm
      · rename_i u hreceiving
        cases hm
        exact follows_receiving hreceiving
      · exact follows_end hc hm
  · cases hm

/-! ## Jobs -/

/-- What a job waits for comes about in the workshop. -/
theorem Shows.moved (h : w.Shows setting v) {j : ChannelJob} {move : JobMove} (hj : w.server.jobs[k]? = some j)
    (hnext : v.next? k j.phase = some move) {shared : Shared} (hpool : shared.pool = (j.phase.readDone v.pool).2) :
    ∃ v', Leads Workshop.step? v v' ∧
      Shows setting { w with shared, server := w.server.setPhase k (move.phase w.server j) } v' := by
  have hserver : w.server.step? (.moved k move) = some (w.server.setPhase k (move.phase w.server j)) := by
    simp [ChannelServer.step?, hj]
  have hdocket := hserver
  rw [← h.server, ← Docket.server_step?] at hdocket
  obtain ⟨d, hd, hds⟩ := Option.map_eq_some_iff.mp hdocket
  have hstep : v.step? (.moved k) = some (v.moved k j.phase d) := by
    simp [Workshop.step?, h.server, hj, hnext, hd]
  have hnumbered := h.numbered.step hserver (.inl rfl)
  have hcarried : ∀ (n : Nat) (l : Line), w.lines[n]? = some l → l.texts.Sublist (textsTo (v.moved k j.phase d) n) :=
    fun n _ hl => (h.carried n _ hl).trans (textsTo_step hstep n).sublist
  refine ⟨_, .one hstep, h.kept.step hstep, ?_, hpool.symm, h.source, hnumbered, hcarried⟩
  rw [← h.server]
  exact hds

/-- A move of a job that sends nothing; that the delay of a read begins is nothing to the workshop. -/
theorem follows_timed {j : ChannelJob} {t : TimedPhase} {shared : Shared} (hj : w.server.jobs[k]? = some j)
    (ht : TimedPhase.Moves setting (w.server.book.closed j.channel) ⟨j.phase, w.delays.lookup k⟩ t w.shared shared) :
    w.Follows setting ({ w with shared }.setTimed k t) := by
  intro v h
  have hconfig : w.server.config = setting.config := h.server ▸ h.kept.sound.answered.setting.1
  suffices ∃ v', Leads Workshop.step? v v' ∧
      Shows setting { w with shared, server := w.server.setPhase k t.phase } v' by
    obtain ⟨v', hleads, hshows⟩ := this
    exact ⟨v', hleads, hshows.of_eq rfl rfl rfl⟩
  cases ht with
  | waits phase pool =>
    refine ⟨v, .refl v, h.of_eq ?_ pool rfl⟩
    rw [phase]
    exact ChannelServer.setPhase_self hj
  | opens job processor before phase pool =>
    replace before : j.phase = .opening job processor := before
    have hphase : t.phase = (JobMove.opened (setting.opens job.resource)).phase w.server j := by
      rw [phase, JobMove.phase, hconfig]
    rw [hphase]
    exact h.moved hj (by simp [Workshop.next?, before, h.source]) (by rw [before, pool, h.pool]; rfl)
  | looks d before phase pool =>
    replace before : j.phase = .refilling d := before
    have hphase : t.phase = JobMove.looked.phase w.server j := phase
    rw [hphase]
    exact h.moved hj (by rw [before]; rfl) (by rw [before, pool, h.pool]; rfl)
  | reads d before phase pool =>
    replace before : j.phase = .reading d := before
    have hphase : t.phase = (JobMove.read v.pool).phase w.server j := by rw [phase, h.pool]; rfl
    rw [hphase]
    exact h.moved hj (by rw [before]; rfl) (by rw [pool, h.pool])
  | learns d f o before ended phase pool =>
    replace before : j.phase = .awaiting d f := before
    have hphase : t.phase = (JobMove.ended o).phase w.server j := phase
    rw [hphase]
    refine h.moved hj ?_ (by rw [before, pool, h.pool]; rfl)
    rw [before, Workshop.next?, h.pool, ended]
    rfl

theorem follows_job (hm : w.moveJob? setting k = some w') : w.Follows setting w' := by
  unfold moveJob? at hm
  split at hm
  · rename_i server hretire
    cases hm
    exact follows_server (e := .retired k) hretire rfl rfl
  · split at hm
    · rename_i server hsend
      cases hm
      exact follows_server (e := .sent k) hsend rfl rfl
    · split at hm
      · cases hm
      · rename_i j hj
        obtain ⟨⟨t, shared⟩, ht, rfl⟩ := Option.map_eq_some_iff.mp hm
        exact follows_timed hj (moves_of_timed ht)

/-! ## Time -/

/-- Every move of a rehearsal is some events of the workshop, or none. -/
theorem follows_move (hm : w.move? setting = some w') : w.Follows setting w' := by
  unfold move? at hm
  split at hm
  · rename_i shared hshared
    cases hm
    exact follows_shared hshared
  · split at hm
    · rename_i server hresume
      cases hm
      obtain ⟨n, -, hn⟩ := List.exists_of_findSome?_eq_some hresume
      exact follows_server (e := .resumed n) hn rfl rfl
    · split at hm
      · rename_i u hconnection
        cases hm
        obtain ⟨n, -, hn⟩ := List.exists_of_findSome?_eq_some hconnection
        exact follows_connection hn
      · obtain ⟨k, -, hk⟩ := List.exists_of_findSome?_eq_some hm
        exact follows_job hk

/-- However long a rehearsal goes on, it stands for a workshop. -/
theorem follows_run (setting : Setting) (limit : Nat) (enough : Serving → Bool) :
    ∀ (fuel : Nat) (w : Serving), w.Follows setting (run setting limit enough fuel w)
  | 0, w => .refl w
  | fuel + 1, w => by
    have hclock : ∀ now, w.Follows setting { w with now } := fun now => (Follows.refl w).of_eq rfl rfl rfl
    unfold run
    split
    · rename_i u hm
      exact (follows_move hm).trans (follows_run setting limit enough fuel u)
    · split
      · exact .refl w
      · split
        · rename_i time _
          split
          · exact (hclock time).trans (follows_run setting limit enough fuel _)
          · exact hclock limit
        · exact hclock limit

/-! ## Steps -/

/-- What a client sends arrives, if it has a connection. -/
theorem follows_arrive (w : Serving) (n : Nat) (i : Inbound) :
    w.Follows setting { w with server := w.server.arrive n i } := by
  by_cases hn : n < w.server.connections.length
  · exact follows_server (e := .arrived n i) (if_pos hn) rfl rfl
  · have hsame : w.server.arrive n i = w.server := by
      rw [ChannelServer.arrive, List.modify_eq_self (Nat.le_of_not_lt hn)]
    exact (Follows.refl w).of_eq hsame rfl rfl

theorem follows_vanish (w : Serving) (client : String) : w.Follows setting (w.vanish client) := by
  unfold vanish
  split
  · rename_i n _
    have harrive : w.Follows setting { w with server := w.server.arrive n .lost } := follows_arrive w n .lost
    have hline := harrive.trans (follows_modifyLine _ n (f := fun l => { l with vanished := true })
      fun l => List.Sublist.refl _)
    exact hline.of_eq rfl rfl rfl
  · exact .refl w

/-- A connection is accepted under its number. -/
theorem follows_accept (w : Serving) (l : Line) (hl : l.texts = []) :
    w.Follows setting { w with
      server := w.server.accept (toString w.server.connections.length), lines := w.lines ++ [l] } := by
  intro v h
  have hs : w.server.step? (.accepted (toString w.server.connections.length)) =
      some (w.server.accept (toString w.server.connections.length)) := by
    rw [ChannelServer.step?, if_neg]
    exact h.numbered.unnamed
  obtain ⟨d, -, hstep, hserver⟩ := h.exists_step hs rfl
  have hshows := h.of_step hstep hserver h.pool (h.numbered.step hs (.inr rfl))
  refine ⟨_, .one hstep, hshows.kept, hshows.server, hshows.pool, hshows.source, hshows.numbered, fun n l' hl' => ?_⟩
  rcases getElem?_concat_eq_some hl' with hold | ⟨-, rfl⟩
  · exact hshows.carried n l' hold
  · rw [hl]
    exact List.nil_sublist _

theorem follows_connect (w : Serving) (client target : String) (capacity : Nat) (listening : Bool) :
    w.Follows setting (w.connect client target capacity listening).2 := by
  unfold connect
  simp only
  split
  · exact ((follows_vanish w client).trans (follows_accept _ { capacity, listening } rfl)).of_eq rfl rfl rfl
  · exact .refl w

theorem follows_send (w : Serving) (client : String) (i : Inbound) : w.Follows setting (w.send client i).2 := by
  unfold send
  split
  · exact .refl w
  · rename_i n _
    split
    · split
      · exact .refl w
      · exact (follows_arrive w n i).trans (follows_modifyLine _ n fun l => List.Sublist.refl _)
    · exact .refl w

theorem follows_apply (w : Serving) (fuel : Nat) (s : ServingStep) :
    w.Follows setting (w.apply setting fuel s).2 := by
  cases s with
  | connect client target capacity listening => exact follows_connect w client target capacity listening
  | listen client =>
    simp only [apply]
    split
    · rename_i n _
      exact follows_modifyLine w n fun l => (Line.texts_listen l).symm ▸ List.Sublist.refl _
    · exact .refl w
  | vanish client => exact follows_vanish w client
  | send client i => exact follows_send w client i
  | pingAll => exact follows_server (e := .pinged) rfl rfl rfl
  | shutdownAll => exact follows_server (e := .shutDown) rfl rfl rfl
  | waitJobs timeout => exact follows_run setting _ _ fuel w
  | idle => exact .refl w

theorem Shows.seen (h : w.Shows setting v) {client : String} {frames : List ClientFrame}
    (hmem : (client, frames) ∈ w.seen) : ∃ n, (frames.filterMap ClientFrame.text?).Sublist (textsTo v n) := by
  obtain ⟨⟨name, n⟩, -, hentry⟩ := List.mem_filterMap.mp hmem
  simp only at hentry
  split at hentry
  · rename_i l hl
    split at hentry
    · cases hentry
    · cases hentry
      refine ⟨n, List.Sublist.trans ?_ (h.carried n l hl)⟩
      rw [Line.texts, List.append_assoc, List.filterMap_append]
      exact List.sublist_append_left ..
  · cases hentry

/-- What was reported is not reported again. -/
theorem Shows.reported (h : w.Shows setting v) :
    Shows setting { w with lines := w.lines.map fun l => { l with seen := [] } } v where
  kept := h.kept
  server := h.server
  pool := h.pool
  source := h.source
  numbered := h.numbered
  carried n l hl := by
    rw [List.getElem?_map] at hl
    obtain ⟨l₀, hl₀, rfl⟩ := Option.map_eq_some_iff.mp hl
    refine List.Sublist.trans ?_ (h.carried n l₀ hl₀)
    simp [Line.texts]

theorem Shows.step (h : w.Shows setting v) (fuel : Nat) (s : ServingStep) (duration : Nat) :
    ∃ v', Leads Workshop.step? v v' ∧ (w.step setting fuel s duration).1.Tells v' ∧
      (w.step setting fuel s duration).2.Shows setting v' := by
  obtain ⟨v', hleads, hshows⟩ :=
    ((follows_apply w fuel s).trans (follows_run setting _ (fun _ => false) fuel _)) v h
  exact ⟨v', hleads, ⟨congrArg (·.book.count) hshows.server.symm, fun _ _ => hshows.seen⟩, hshows.reported⟩

theorem Shows.steps : ∀ {script : List (ServingStep × Nat)} {w : Serving} {v : Workshop} (fuel : Nat),
    w.Shows setting v → ∀ report ∈ steps setting fuel w script, ∃ v', Leads Workshop.step? v v' ∧ report.Tells v'
  | (s, duration) :: rest, w, v, fuel, h, report, hmem => by
    obtain ⟨v', hleads, htells, hshows⟩ := h.step fuel s duration
    rcases List.mem_cons.mp hmem with rfl | hmem
    · exact ⟨v', hleads, htells⟩
    · obtain ⟨v'', hleads', htells⟩ := hshows.steps fuel report hmem
      exact ⟨v'', hleads.trans hleads', htells⟩

/-- Whatever the script, every report tells of a workshop that a run reaches. -/
theorem rehearse_run (setting : Setting) (size depth : Nat) (script : List (ServingStep × Nat)) :
    ∀ report ∈ rehearse setting (.ofSize size) depth script, ∃ es v,
      (Workshop.start setting.config setting.registry depth size fun _ => setting.opens).run? es = some v ∧
        report.Tells v := by
  have hstart : Shows setting
      { shared := { pool := .ofSize size }
        server := { config := setting.config, registry := setting.registry, book := .ofDepth depth } }
      (Workshop.start setting.config setting.registry depth size fun _ => setting.opens) :=
    ⟨Workshop.kept_start .., rfl, rfl, rfl, rfl, fun n l hl => by cases hl⟩
  intro report hmem
  obtain ⟨v, hleads, htells⟩ := hstart.steps _ report hmem
  obtain ⟨es, hrun⟩ := hleads
  exact ⟨es, v, hrun, htells⟩

end Serving
end Rehearsal
end FrameStream
