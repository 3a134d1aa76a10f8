import FrameStream.Proofs.Service.Plan
import FrameStream.Video.Decoder
import FrameStream.Video.FileTree

/-!
# Frames in the output of a decoder

A video that opens has the sides of its first video stream, and they are small enough for the length of a frame to be
their product. Its reads give the output in frames of that length, one after the other, and then how the decoder ended
(`Framed`), however the output came in pieces.
-/

namespace FrameStream.Video

variable {reference : String} {g : Geometry} {run : ProgramRun} {n k : Nat}

/-! ## Pieces -/

theorem takeExact_of_le {ps : List Bytes} (h : n ≤ ps.flatten.length) :
    ∃ rest, takeExact n ps = some (ps.flatten.take n, rest) ∧ rest.flatten = ps.flatten.drop n := by
  induction ps generalizing n with
  | nil =>
    obtain rfl : n = 0 := Nat.le_zero.mp h
    exact ⟨[], rfl, rfl⟩
  | cons p ps ih =>
    rw [List.flatten_cons] at h ⊢
    rw [takeExact]
    by_cases hp : n ≤ p.length
    · refine ⟨p.drop n :: ps, ?_, ?_⟩
      · rw [if_pos hp, List.take_append_of_le_length hp]
      · rw [List.flatten_cons, List.drop_append_of_le_length hp]
    · rw [List.length_append] at h
      obtain ⟨rest, hrest, hflat⟩ := ih (n := n - p.length) (by omega)
      have hlong : p.length ≤ n := Nat.le_of_not_le hp
      refine ⟨rest, ?_, ?_⟩
      · rw [if_neg hp, hrest, List.take_append, List.take_of_length_le hlong]
        rfl
      · rw [hflat, List.drop_append, List.drop_eq_nil_of_le hlong, List.nil_append]

theorem takeExact_of_lt {ps : List Bytes} (h : ps.flatten.length < n) : takeExact n ps = none := by
  induction ps generalizing n with
  | nil => exact if_neg (Nat.ne_of_gt h)
  | cons p ps ih =>
    rw [List.flatten_cons, List.length_append] at h
    rw [takeExact, if_neg (by omega), ih (by omega)]
    rfl

/-! ## Reads -/

/-- Read `k` of an output: its frame `k` if that is whole, and how the decoder ended otherwise. -/
def frameAt (reference : String) (g : Geometry) (run : ProgramRun) (k : Nat) : ReadOutcome :=
  if (k + 1) * g.frameLength ≤ run.output.length then
    .frame ⟨g.width, g.height, run.output.extract (k * g.frameLength) ((k + 1) * g.frameLength)⟩
  else afterOutput reference run.status

theorem extract_frame (output : Bytes) :
    output.extract (k * n) ((k + 1) * n) = (output.drop (k * n)).take n := by
  rw [List.extract_eq_take_drop, Nat.succ_mul, Nat.add_sub_cancel_left]

theorem getElem?_cut (m : Nat) (output : Bytes) :
    (cut n m output)[k]? = if k < m then some (output.extract (k * n) ((k + 1) * n)) else none := by
  rw [extract_frame]
  induction m generalizing k output with
  | zero => rfl
  | succ m ih =>
    cases k with
    | zero => rw [cut, List.getElem?_cons_zero, if_pos (Nat.succ_pos m), Nat.zero_mul, List.drop_zero]
    | succ k =>
      rw [cut, List.getElem?_cons_succ, ih, List.drop_drop, Nat.succ_mul, Nat.add_comm n]
      simp only [Nat.add_lt_add_iff_right]

theorem outcomeAt_resource (hn : 0 < g.frameLength) :
    (resource reference g run).outcomeAt k = frameAt reference g run k := by
  have hwhole : k < run.output.length / g.frameLength ↔ (k + 1) * g.frameLength ≤ run.output.length :=
    Nat.le_div_iff_mul_le hn
  simp only [Resource.outcomeAt, resource, framesIn, List.getElem?_map, getElem?_cut, frameAt, hwhole]
  split <;> rfl

/-- The reads do not depend on how the output came in pieces. -/
theorem readAt_eq_frameAt (hn : 0 < g.frameLength) {pieces : List Bytes} (h : pieces.flatten = run.output) :
    (Decoder.mk reference g pieces run.status).readAt k = frameAt reference g run k := by
  obtain ⟨output, status⟩ := run
  dsimp only at h
  subst h
  induction k generalizing pieces with
  | zero =>
    rw [Decoder.readAt, Decoder.read, frameAt, extract_frame, Nat.zero_mul, List.drop_zero, Nat.one_mul]
    by_cases hlen : g.frameLength ≤ pieces.flatten.length
    · obtain ⟨rest, htake, -⟩ := takeExact_of_le hlen
      rw [if_pos hlen, htake]
    · rw [if_neg hlen, takeExact_of_lt (Nat.lt_of_not_le hlen)]
  | succ k ih =>
    have hfirst : g.frameLength ≤ (k + 1) * g.frameLength := Nat.le_mul_of_pos_left _ (Nat.succ_pos k)
    have hnext : (k + 1 + 1) * g.frameLength = g.frameLength + (k + 1) * g.frameLength := by
      rw [Nat.succ_mul, Nat.add_comm]
    rw [Decoder.readAt, Decoder.read]
    by_cases hlen : g.frameLength ≤ pieces.flatten.length
    · obtain ⟨rest, htake, hrest⟩ := takeExact_of_le hlen
      have hdata : (pieces.flatten.drop g.frameLength).drop (k * g.frameLength) =
          pieces.flatten.drop ((k + 1) * g.frameLength) := by
        rw [List.drop_drop, Nat.succ_mul, Nat.add_comm]
      rw [htake]
      refine ih.trans ?_
      simp only [frameAt, extract_frame]
      simp only [hrest, hdata, hnext, List.length_drop, Nat.le_sub_iff_add_le' hlen]
    · rw [takeExact_of_lt (Nat.lt_of_not_le hlen)]
      refine ih.trans ?_
      simp only [frameAt, List.flatten_nil, List.length_nil]
      rw [if_neg (by omega), if_neg (by omega)]

/-! ## Openings -/

/-- The first video stream of a report, and the sides it gives. -/
def Report.Shows (report : Report) (width height : UInt32) : Prop :=
  ∃ before t after, report.tracks = before ++ t :: after ∧ (∀ u ∈ before, u.kind ≠ some "video") ∧
    t.kind = some "video" ∧ t.width = some width ∧ t.height = some height

theorem shows_of_geometry? {report : Report} (h : report.geometry? = some g) : report.Shows g.width g.height := by
  obtain ⟨t, ht, h⟩ := Option.bind_eq_some_iff.mp h
  obtain ⟨width, hwidth, h⟩ := Option.bind_eq_some_iff.mp h
  obtain ⟨height, hheight, h⟩ := Option.bind_eq_some_iff.mp h
  cases h
  obtain ⟨hkind, before, after, heq, hbefore⟩ := List.find?_eq_some_iff_append.mp ht
  refine ⟨before, t, after, heq, fun u hu => ?_, of_decide_eq_true hkind, hwidth, hheight⟩
  simpa using hbefore u hu

/-- A geometry is told by a probe that succeeded, in a report that can be read. -/
theorem report_of_geometry (h : geometry reference run = .ok g) :
    run.status.success = true ∧ ∃ report, Report.record.parse run.output = .ok report ∧ report.geometry? = some g := by
  unfold geometry at h
  split at h
  · cases h
  rename_i hsuccess
  cases hparse : Report.record.parse run.output with
  | error f =>
    rw [hparse] at h
    cases h
  | ok report =>
    rw [hparse] at h
    cases hgeometry : report.geometry? with
    | none =>
      simp only [hgeometry] at h
      cases h
    | some g' =>
      simp only [hgeometry] at h
      cases h
      exact ⟨by simpa using hsuccess, report, rfl, hgeometry⟩

/-- What has to go well for a video to open, and what it then is. -/
theorem open_eq_ok {s : Source} {r : Resource} : (s.open reference).result = .ok r ↔
    s.isFile reference = true ∧ ∃ probe g run, s.probe = .ok probe ∧ geometry reference probe = .ok g ∧
      g.supported = true ∧ s.decoder = .ok run ∧ r = resource reference g run := by
  constructor
  · intro h
    unfold Source.open at h
    split at h
    · cases h
    rename_i hfile
    cases hprobe : s.probe with
    | error e =>
      simp only [hprobe] at h
      cases h
    | ok probe =>
      simp only [hprobe] at h
      cases hg : geometry reference probe with
      | error e =>
        simp only [hg] at h
        cases h
      | ok g =>
        simp only [hg] at h
        split at h
        · rename_i hsupported
          cases hrun : s.decoder with
          | error e =>
            simp only [Source.decode, hrun] at h
            cases h
          | ok run =>
            simp only [Source.decode, hrun] at h
            cases h
            exact ⟨by simpa using hfile, probe, g, run, rfl, hg, hsupported, rfl, rfl⟩
        · cases h
  · rintro ⟨hfile, probe, g, run, hprobe, hg, hsupported, hrun, rfl⟩
    simp only [Source.open, hfile, hprobe, hg, hsupported, Source.decode, hrun, Bool.not_true, Bool.false_eq_true,
      ↓reduceIte]

theorem bounds_of_supported (h : g.supported = true) :
    (1 ≤ g.width.toNat ∧ g.width.toNat ≤ 1920) ∧ 1 ≤ g.height.toNat ∧ g.height.toNat ≤ 1080 := by
  simp only [Geometry.supported, Bool.and_eq_true, decide_eq_true_eq, Invert.maxFrameWidth, Invert.maxFrameHeight,
    ne_eq] at h
  obtain ⟨⟨⟨hwidth, hheight⟩, hwide⟩, hhigh⟩ := h
  refine ⟨⟨?_, of_decide_eq_true hwide⟩, ?_, of_decide_eq_true hhigh⟩
  · exact Nat.one_le_iff_ne_zero.mpr fun h0 => hwidth (UInt32.toNat_inj.mp h0)
  · exact Nat.one_le_iff_ne_zero.mpr fun h0 => hheight (UInt32.toNat_inj.mp h0)

theorem frameLength_of_bounds (hwidth : 1 ≤ g.width.toNat ∧ g.width.toNat ≤ 1920)
    (hheight : 1 ≤ g.height.toNat ∧ g.height.toNat ≤ 1080) :
    g.frameLength = g.width.toNat * g.height.toNat * 3 ∧ 0 < g.frameLength := by
  have hproduct : g.width.toNat * g.height.toNat * 3 ≤ 1920 * 1080 * 3 :=
    Nat.mul_le_mul_right 3 (Nat.mul_le_mul hwidth.2 hheight.2)
  have hlen : g.frameLength = g.width.toNat * g.height.toNat * 3 :=
    Frame.expectedLength_eq (Nat.lt_of_le_of_lt hproduct (by decide))
  refine ⟨hlen, ?_⟩
  rw [hlen]
  exact Nat.mul_pos (Nat.mul_pos hwidth.1 hheight.1) (by decide)

/-- The reads of a decoder's output as frames of a size: the whole frames one after the other, and then how the decoder
ended. -/
structure Framed (readAt : Nat → ReadOutcome) (reference : String) (width height : UInt32) (run : ProgramRun) :
    Prop where
  frames : ∀ k < run.output.length / (width.toNat * height.toNat * 3), ∃ f, readAt k = .frame f ∧ f.wellFormed = true ∧
    f.width = width ∧ f.height = height ∧
    f.data = run.output.extract (k * (width.toNat * height.toNat * 3)) ((k + 1) * (width.toNat * height.toNat * 3))
  ended : run.status.success = true →
    ∀ k, run.output.length / (width.toNat * height.toNat * 3) ≤ k → readAt k = .ended
  failed : run.status.success = false →
    ∀ k, run.output.length / (width.toNat * height.toNat * 3) ≤ k →
      readAt k = .failed (.unavailable reference ("ffmpeg exited with " ++ run.status.text))

theorem framed_frameAt (hwidth : 1 ≤ g.width.toNat ∧ g.width.toNat ≤ 1920)
    (hheight : 1 ≤ g.height.toNat ∧ g.height.toNat ≤ 1080) :
    Framed (frameAt reference g run) reference g.width g.height run := by
  obtain ⟨hlen, hn⟩ := frameLength_of_bounds hwidth hheight
  have hwhole : ∀ k, k < run.output.length / g.frameLength ↔ (k + 1) * g.frameLength ≤ run.output.length :=
    fun k => Nat.le_div_iff_mul_le hn
  refine ⟨?_, ?_, ?_⟩ <;> rw [← hlen]
  · intro k hk
    have hle := (hwhole k).mp hk
    refine ⟨_, if_pos hle, ?_, rfl, rfl, rfl⟩
    have hdata : (run.output.extract (k * g.frameLength) ((k + 1) * g.frameLength)).length = g.frameLength := by
      rw [Nat.succ_mul] at hle
      rw [extract_frame, List.length_take, List.length_drop]
      omega
    simp only [Frame.wellFormed, Bool.and_eq_true, decide_eq_true_eq, beq_iff_eq]
    exact ⟨⟨UInt32.lt_iff_toNat_lt.mpr hwidth.1, UInt32.lt_iff_toNat_lt.mpr hheight.1⟩, hdata⟩
  · intro hsuccess k hk
    rw [frameAt, if_neg (mt (hwhole k).mpr (Nat.not_lt.mpr hk)), afterOutput, if_pos hsuccess]
  · intro hfailure k hk
    rw [frameAt, if_neg (mt (hwhole k).mpr (Nat.not_lt.mpr hk)), afterOutput, if_neg (by rw [hfailure]; decide)]

/-- A video that opens has the sides of the first video stream of its report, within bounds and with a product that fits
into 64 bits, and its reads give the output of the decoder frame by frame, in whatever pieces that was written. -/
theorem opened_video_framed {s : Source} {r : Resource} (h : (s.open reference).result = .ok r) :
    ∃ probe report width height run, s.probe = .ok probe ∧ probe.status.success = true ∧
      Report.record.parse probe.output = .ok report ∧ report.Shows width height ∧
      (1 ≤ width.toNat ∧ width.toNat ≤ 1920) ∧ (1 ≤ height.toNat ∧ height.toNat ≤ 1080) ∧
      Frame.expectedLength width height = width.toNat * height.toNat * 3 ∧
      s.decoder = .ok run ∧ Framed r.outcomeAt reference width height run ∧
      ∀ (g : Geometry) (pieces : List Bytes), g.width = width → g.height = height → pieces.flatten = run.output →
        Framed (Decoder.mk reference g pieces run.status).readAt reference width height run := by
  obtain ⟨-, probe, g, run, hprobe, hgeometry, hsupported, hrun, rfl⟩ := open_eq_ok.mp h
  obtain ⟨hsuccess, report, hparse, hreport⟩ := report_of_geometry hgeometry
  obtain ⟨hwidth, hheight⟩ := bounds_of_supported hsupported
  obtain ⟨hlen, hn⟩ := frameLength_of_bounds hwidth hheight
  refine ⟨probe, report, g.width, g.height, run, hprobe, hsuccess, hparse, shows_of_geometry? hreport, hwidth, hheight,
    hlen, hrun, ?_, fun g' pieces hw hh hpieces => ?_⟩
  · rw [show (resource reference g run).outcomeAt = frameAt reference g run from
      funext fun k => outcomeAt_resource hn]
    exact framed_frameAt hwidth hheight
  · rw [← hw] at hwidth ⊢
    rw [← hh] at hheight ⊢
    obtain ⟨-, hn'⟩ := frameLength_of_bounds hwidth hheight
    rw [show (Decoder.mk reference g' pieces run.status).readAt = frameAt reference g' run from
      funext fun k => readAt_eq_frameAt hn' hpieces]
    exact framed_frameAt hwidth hheight

/-- A report of a sound and then a video whose claim cannot be read. -/
def soundFirst : Bytes :=
  Bytes.ofText ("\x7b\"streams\":[\x7b\"codec_type\":\"audio\",\"width\":9\x7d," ++
    "\x7b\"codec_type\":\"video\",\"width\":2,\"height\":1,\"nb_frames\":\"x\"\x7d]\x7d")

/-- The decoder is killed after two frames and a byte. -/
def killed : ProgramRun := ⟨[0, 1, 2, 3, 4, 5, 6, 7, 8, 9, 10, 11, 12], .signal⟩

/-- The one file there is stands in a folder made for the occasion. -/
def occasion : Source where
  isFile := (FileTree.ofPaths ["tmp", "x"] ["clip.ogv"] []).isFile
  probe := .ok ⟨soundFirst, .code 0⟩
  decoder := .ok killed

/-- The video is opened by its path from the root. -/
theorem killed_decoder_framed : ∃ r, (occasion.open "/tmp/x/clip.ogv").result = .ok r ∧
    r.outcomeAt 1 = .frame ⟨2, 1, [6, 7, 8, 9, 10, 11]⟩ ∧
    r.outcomeAt 2 = .failed (.unavailable "/tmp/x/clip.ogv" "ffmpeg exited with None") := by
  have hfile : occasion.isFile "/tmp/x/clip.ogv" = true := by decide +kernel
  have hgeometry : geometry "/tmp/x/clip.ogv" ⟨soundFirst, .code 0⟩ = .ok ⟨2, 1, .zero false, none⟩ := by
    decide +kernel
  have hopen := open_eq_ok.mpr ⟨hfile, _, _, killed, rfl, hgeometry, rfl, rfl, rfl⟩
  obtain ⟨probe, report, width, height, run, hprobe, -, hparse, hshows, -, -, -, hrun, hframed, -⟩ :=
    opened_video_framed hopen
  cases hprobe
  cases hrun
  obtain ⟨rfl, rfl⟩ : width = 2 ∧ height = 1 := by
    have hreport : (Report.record.parse soundFirst).toOption = some ⟨[{ kind := some "audio", width := some 9 },
        { kind := some "video", width := some 2, height := some 1, frames := some "x" }]⟩ := by decide +kernel
    rw [hparse] at hreport
    cases hreport
    obtain ⟨before, t, after, htracks, hbefore, hkind, hwidth, hheight⟩ := hshows
    -- The sound is not the first video stream, and what comes first after it is the video.
    rcases before with _ | ⟨sound, _ | ⟨video, before⟩⟩
    · cases htracks
      exact absurd hkind (by decide)
    · cases htracks
      cases hwidth
      cases hheight
      exact ⟨rfl, rfl⟩
    · obtain ⟨-, htracks⟩ := List.cons.inj htracks
      obtain ⟨rfl, -⟩ := List.cons.inj htracks
      exact absurd rfl (hbefore _ (List.mem_cons_of_mem _ List.mem_cons_self))
  obtain ⟨f, hf, -, hw, hh, hdata⟩ := hframed.frames 1 (by decide)
  obtain ⟨w, h, data⟩ := f
  cases hw
  cases hh
  cases hdata
  exact ⟨_, hopen, hf, hframed.failed rfl 2 (by decide)⟩

end FrameStream.Video
