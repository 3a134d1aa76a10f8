import FrameStream.Proofs.Channel.Occupied

/-!
# What is refused while a job holds the slot

Jobs are started for the letters of a connection in the order in which these came. So while a job holds the slot of an
open channel no job was started for any letter after its own; a receive loop that is done with such a letter either
found no request in it or declined it, and then the client hears that one message about it.
-/

namespace FrameStream
namespace Docket

variable {d d' : Docket} {l : Letter} {j : ChannelJob} {k : Nat} {config : ServiceConfig} {registry : Registry}
  {depth : Nat} {e : ServerEvent} {es : List ServerEvent}

/-! ## The order in which jobs are started -/

/-- Of two letters of one connection the job for the earlier one was started first. -/
def InOrder (d : Docket) : Prop := d.origins.Pairwise fun a b => a.connection = b.connection → a.place < b.place

theorem Sound.inOrder_step (h : d.Sound config registry) (ho : d.InOrder) (hs : d.step? e = some d') : d'.InOrder := by
  obtain ⟨s, hstep, rfl⟩ := step?_eq_some hs
  by_cases he : ∃ n, e = .taken n
  · obtain ⟨n, rfl⟩ := he
    obtain ⟨c, i, c', b, job, -, -, htakes, hserver⟩ := ChannelServer.step?_taken hstep
    have horigins := (takes_note hserver htakes.next_inbound.2.2).origins
    rw [InOrder, horigins]
    refine List.pairwise_append.mpr ⟨ho, ?_, fun a ha b hb hsame => ?_⟩
    · cases job with
      | none => exact List.Pairwise.nil
      | some j => exact List.pairwise_singleton _ _
    · obtain ⟨-, -, rfl⟩ := List.mem_map.mp hb
      have htaken := h.answered.taken_of_mem h.wired ha
      rw [show a.connection = n from hsame] at htaken
      exact htaken
  · have hsame := ((d.note_keeps s e).1 fun n hn => he ⟨n, hn⟩).2
    exact (congrArg (List.Pairwise _) hsame).mpr ho

theorem inOrder_run (h : d.Sound config registry) (ho : d.InOrder) (hes : d.run? es = some d') : d'.InOrder :=
  (run_keeps (P := fun u => u.Sound config registry ∧ u.InOrder)
    (fun hu hs => ⟨hu.1.step hs, hu.1.inOrder_step hu.2 hs⟩) ⟨h, ho⟩ hes).2

/-! ## Letters that are taken while the slot is held -/

/-- No job was started for the letter, and the client hears at most that it is declined. -/
structure TurnedAway (d : Docket) (l : Letter) : Prop where
  jobless : l ∉ d.origins
  heard : d.heard l = [] ∨ ∃ text m, d.letter? l = some (.request text) ∧ Declines text m ∧ d.heard l = [m]

theorem Sound.turnedAway (h : d.Sound config registry) (hl : l ∉ d.origins) : d.TurnedAway l := by
  refine ⟨hl, ?_⟩
  cases h.answered.rest l hl with
  | coming later silent => exact .inl silent
  | declining last busy => exact .inl (h.silent_of_busy last busy)
  | skipped taken silent other => exact .inl silent
  | declined taken text m request declines said => exact .inr ⟨text, m, request, declines, said⟩
  | unheard taken silent gone => exact .inl silent

/-- While a job has not given back the slot of an open channel, it holds it, and all letters after its own are turned
away. -/
theorem Orderly.holds_slot (h : d.Orderly config registry) (ho : d.InOrder) (hj : d.server.jobs[k]? = some j)
    (hl : d.origins[k]? = some l) (hopen : d.server.book.closed l.connection = false) (hheld : j.released = false) :
    (∃ key, d.server.book.holder? j.conn = some ⟨j.id, key⟩) ∧
      ∀ l', l'.connection = l.connection → l.place < l'.place → d.TurnedAway l' := by
  have hchannel := (h.sound.answered.job k j l hj hl).channel
  have htenant : d.server.tenants[k]? = some j.tenant := by simp [ChannelServer.tenants, hj]
  have hopen' : d.server.book.closed j.tenant.channel = false := by
    rw [show j.tenant.channel = l.connection from hchannel]
    exact hopen
  refine ⟨h.housed.holds j.tenant (List.mem_of_getElem? htenant) hheld hopen', fun l' hsame hafter => ?_⟩
  refine h.sound.turnedAway fun hmem => ?_
  obtain ⟨i, hi⟩ := List.mem_iff_getElem?.mp hmem
  obtain ⟨u, hu, hstands⟩ := h.sound.answered.exists_job h.sound.wired hi
  obtain ⟨hilt, hil⟩ := List.getElem?_eq_some_iff.mp hi
  obtain ⟨hklt, hkl⟩ := List.getElem?_eq_some_iff.mp hl
  rcases Nat.lt_trichotomy i k with hlt | rfl | hgt
  · have hplace := List.pairwise_iff_getElem.mp ho i k hilt hklt hlt
    rw [hil, hkl] at hplace
    exact absurd (hplace hsame) (Nat.not_lt.mpr (Nat.le_of_lt hafter))
  · rw [hl] at hi
    cases hi
    exact absurd hafter (Nat.lt_irrefl _)
  · have hreleased := h.released_of_later hgt hj hu (hchannel.trans (hsame.symm.trans hstands.channel.symm)) hopen'
    rw [hheld] at hreleased
    cases hreleased

end Docket
end FrameStream
