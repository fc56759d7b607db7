import ClipRender.Engine.Arguments
import ClipRender.Proofs.Rendering.Commanding

set_option autoImplicit false

/-!
What of its source a clip shows. The engine begins to read where the trimmed moment starts and
writes for as long as the trimmed moment is, at any speed. So a clip shows its moment when the times
of the frames are left alone, more of the source when they are drawn together, and less when they
are drawn apart.
-/

namespace ClipRender

open Binary64

namespace Filter

def timeless : List String := ["crop", "eq", "drawtext"]

def timesFactor? (text : String) : Option ℚ :=
  match text.toList.splitOn '*' with
  | [factor, ['P', 'T', 'S']] => (Decimal.Literal.read? factor).map Decimal.Literal.value
  | _ => none

namespace Call

def factor? (call : Call) : Option ℚ :=
  if call.filter ∈ timeless then some 1
  else
    match call with
    | ⟨"setpts", [⟨none, expression⟩]⟩ => timesFactor? expression
    | _ => none

def chainFactor? : List Call → Option ℚ
  | [] => some 1
  | call :: calls => do
    let factor ← call.factor?
    let others ← chainFactor? calls
    return factor * others

theorem factor?_setpts (expression : String) :
    factor? ⟨"setpts", [⟨none, expression⟩]⟩ = timesFactor? expression :=
  if_neg (show "setpts" ∉ timeless by decide)

theorem chainFactor?_timeless {calls : List Call} (rest : List Call)
    (h : ∀ call ∈ calls, call.filter ∈ timeless) :
    chainFactor? (calls ++ rest) = chainFactor? rest := by
  induction calls with
  | nil => rfl
  | cons call calls ih =>
    have head : call.factor? = some 1 := if_pos (h call List.mem_cons_self)
    have tail := ih fun other hmem => h other (List.mem_cons_of_mem call hmem)
    rw [List.cons_append, chainFactor?, head, tail]
    cases chainFactor? rest <;> simp

end Call

theorem timesFactor?_fixed {x : Binary64}
    (hx : x = .infinity false ∨ (x.isFinite = true ∧ 0 ≤ x.value)) :
    timesFactor? (Decimal.fixed 6 x ++ "*PTS")
      = (x.roundedPlaces? 6).map fun n : Nat => (n : ℚ) / 10 ^ 6 := by
  rcases hx with rfl | ⟨hfinite, hnonneg⟩
  · decide
  · cases x with
    | finite s r hr =>
      have star : '*' ∉ (Decimal.fixed 6 (finite s r hr)).toList := by
        intro hmem
        rcases Decimal.mem_fixed (by decide) hmem with hdigit | hpoint | hsign
        · exact absurd hdigit (by decide)
        · exact absurd hpoint (by decide)
        · exact absurd hsign (by decide)
      have parts : (['*'].intercalate [(Decimal.fixed 6 (finite s r hr)).toList,
            ['P', 'T', 'S']]).splitOn '*'
          = [(Decimal.fixed 6 (finite s r hr)).toList, ['P', 'T', 'S']] :=
        List.splitOn_intercalate '*' (by simp [star]) (by simp)
      have text : (Decimal.fixed 6 (finite s r hr) ++ "*PTS").toList
          = ['*'].intercalate [(Decimal.fixed 6 (finite s r hr)).toList, ['P', 'T', 'S']] := by
        simp
      have factor := Decimal.number?_fixed (by decide : 0 < 6) s hr
      rw [timesFactor?, text, parts]
      change Decimal.number? (Decimal.fixed 6 (finite s r hr)) = _
      rw [factor, roundedPlaces?, Nat.pow_eq, Option.map_some, Option.some_inj]
      cases s with
      | false => rw [signFactor, if_neg Bool.false_ne_true, one_mul]
      | true =>
        have hzero : unitsAt r = 0 := by
          rw [value_nonneg_iff] at hnonneg
          simp only [signedUnits, if_true] at hnonneg
          omega
        have hnone : roundHalfEven (unitsAt r * 10 ^ 6) unitsPerOne = 0 := by
          rw [roundHalfEven_eq_zero_iff unitsPerOne_pos, hzero]
          exact Nat.zero_le _
        rw [hnone]
        simp
    | infinity s => cases hfinite
    | nan => cases hfinite

end Filter

namespace Engine

def Options.words (options : Options) : List String :=
  options.flatMap fun option => [option.1, option.2]

/-- An option of the output with its value in the word behind it. -/
def HasValue (name : String) : Prop := isOption name = true ∧ name ≠ "-i" ∧ name ∉ switches

instance (name : String) : Decidable (HasValue name) := inferInstanceAs (Decidable (_ ∧ _))

theorem readOutput?_words {options : Options} (h : ∀ option ∈ options, HasValue option.1)
    (target : String) : readOutput? (options.words ++ [target]) = some (options, target) := by
  induction options with
  | nil => rfl
  | cons option options ih =>
    obtain ⟨hoption, hinput, hswitch⟩ := h option List.mem_cons_self
    have tail := ih fun other hmem => h other (List.mem_cons_of_mem option hmem)
    have words : Options.words (option :: options) ++ [target]
        = option.1 :: option.2 :: (Options.words options ++ [target]) := rfl
    rw [words, readOutput?, if_neg hswitch, if_pos ⟨hoption, hinput⟩, tail]
    rfl

end Engine

namespace Rendering

open Filter Engine

/-- What a clip takes from its source. -/
structure Excerpt where
  source : String
  /-- The millisecond of the source at which the clip begins. -/
  seek : Nat
  /-- The milliseconds after which the clip is cut off. -/
  limit : Nat
  /-- What the times of the frames, counted from the beginning, are multiplied by. -/
  factor : Option ℚ

/-- The options of an output that do not tell which frames are in it. -/
def timelessOptions : List String :=
  ["-af", "-c:v", "-preset", "-crf", "-pix_fmt", "-c:a", "-b:a", "-movflags", "-f"]

def excerptOptions : List String := "-t" :: "-vf" :: timelessOptions

/-- What a clip takes from its source by the arguments of the engine. Nothing is told of a clip with
options besides these, which might change its times too. -/
def Excerpt.read? (arguments : List String) : Option Excerpt := do
  let invocation ← Invocation.read? arguments
  let seek ← invocation.inputOptions.value? "-ss"
  let limit ← invocation.outputOptions.value? "-t"
  let calls ← (invocation.outputOptions.value? "-vf").elim (some []) fun text =>
    Call.readChain? text.toList
  if (∀ option ∈ invocation.inputOptions, option.1 = "-ss") ∧
      ∀ option ∈ invocation.outputOptions, option.1 ∈ excerptOptions then
    return ⟨invocation.source, ← Timestamp.read? seek, ← Timestamp.read? limit,
      Call.chainFactor? calls⟩
  else none

/-- A frame is in the clip when it is not before the beginning and comes up before the end. -/
def Excerpt.Shows (excerpt : Excerpt) (t : ℚ) : Prop :=
  ∃ f ∈ excerpt.factor, excerpt.seek ≤ t ∧ f * (t - excerpt.seek) < excerpt.limit

/-- The factor that the speed asks for, at six places. At a speed of which the reciprocal is beyond
all numbers there is none. -/
def Job.factor? (job : Job) : Option ℚ :=
  if Binary64.eq job.spec.speed one then some 1
  else ((one / job.spec.speed).roundedPlaces? 6).map fun n : Nat => (n : ℚ) / 10 ^ 6

theorem chainFactor?_editCalls {job : Job} (hspec : job.spec.WellFormed)
    (fontFile : Option String) : Call.chainFactor? (editCalls fontFile job.spec) = job.factor? := by
  have before : ∀ call ∈ ((ratioOf job.spec.aspectRatio).map cropCall).toList
      ++ colorCalls job.spec, call.filter ∈ timeless := by
    intro call hmem
    rcases List.mem_append.mp hmem with hcrop | hcolor
    · rw [Option.mem_toList] at hcrop
      obtain ⟨ratio, -, rfl⟩ := Option.map_eq_some_iff.mp hcrop
      exact List.mem_cons_self
    · rw [colorCalls] at hcolor
      split at hcolor
      · cases hcolor
      · obtain rfl := List.mem_singleton.mp hcolor
        exact List.mem_cons_of_mem _ List.mem_cons_self
  have after : ∀ call ∈ job.spec.textOverlays.map (overlayCall fontFile),
      call.filter ∈ timeless := by
    intro call hmem
    obtain ⟨overlay, -, rfl⟩ := List.mem_map.mp hmem
    exact List.mem_cons_of_mem _ (List.mem_cons_of_mem _ List.mem_cons_self)
  have texts := Call.chainFactor?_timeless [] after
  rw [List.append_nil] at texts
  rw [editCalls, List.append_assoc, Call.chainFactor?_timeless _ before, speedCalls, Job.factor?]
  by_cases hone : Binary64.eq job.spec.speed one = true
  · rw [if_pos hone, if_pos hone, List.nil_append, texts]
    rfl
  · have times := timesFactor?_fixed (one_div_nonneg hspec.speed.1 hspec.speed.2)
    rw [if_neg hone, if_neg hone, List.singleton_append, Call.chainFactor?, texts,
      Call.factor?_setpts, ← times]
    generalize timesFactor? _ = factor
    cases factor <;> simp [Call.chainFactor?]

section Commands

variable {settings : Settings} {job : Job} {output : String} {arguments : List String}

def chainOptions (graph : Graph) : Options :=
  (graph.videoFilter?.map fun chain => ("-vf", chain)).toList
    ++ (graph.audioFilter?.map fun chain => ("-af", chain)).toList

def encoding : Options :=
  [("-c:v", "libx264"), ("-preset", Settings.encoderPreset),
    ("-crf", toString Settings.encoderQuality), ("-pix_fmt", "yuv420p"),
    ("-c:a", Settings.audioCodec), ("-b:a", Settings.audioBitrate), ("-movflags", "+faststart"),
    ("-f", "mp4")]

theorem mem_excerptOptions {graph : Graph} {duration : String} {option : String × String}
    (h : option ∈ ("-t", duration) :: (chainOptions graph ++ encoding)) :
    option.1 ∈ excerptOptions := by
  have encodes : ∀ option ∈ encoding, option.1 ∈ excerptOptions := by decide
  rw [List.mem_cons, List.mem_append, chainOptions, List.mem_append, Option.mem_toList,
    Option.mem_toList] at h
  rcases h with rfl | (hvideo | haudio) | hencoding
  · exact List.mem_cons_self
  · obtain ⟨chain, -, rfl⟩ := Option.map_eq_some_iff.mp hvideo
    exact List.mem_cons_of_mem _ List.mem_cons_self
  · obtain ⟨chain, -, rfl⟩ := Option.map_eq_some_iff.mp haudio
    exact List.mem_cons_of_mem _ (List.mem_cons_of_mem _ List.mem_cons_self)
  · exact encodes option hencoding

theorem value?_chainOptions (graph : Graph) (duration : String) :
    Options.value? (("-t", duration) :: (chainOptions graph ++ encoding)) "-t" = some duration ∧
      Options.value? (("-t", duration) :: (chainOptions graph ++ encoding)) "-vf"
        = graph.videoFilter? := by
  rw [chainOptions]
  cases graph.videoFilter? <;> cases graph.audioFilter? <;> exact ⟨rfl, rfl⟩

/-- The arguments of a job, read. The job gives the options of the output in front of the
encoding. -/
theorem read?_command (h : command settings job output = .ok arguments) :
    ∃ range graph seek duration, TimeRange.ofMoment job.moment job.spec = .ok range ∧
      Graph.ofSpec settings.fontFile job.spec = .ok graph ∧ range.seek = .ok seek ∧
      range.duration = .ok duration ∧
      Invocation.read? arguments = some ⟨settings.enginePath, [("-ss", seek)], job.source,
        ("-t", duration) :: (chainOptions graph ++ encoding), output⟩ := by
  rw [command] at h
  obtain ⟨range, hmapped, h⟩ := bind_eq_ok h
  obtain ⟨graph, hgraph, h⟩ := bind_eq_ok h
  obtain ⟨seek, hseek, h⟩ := bind_eq_ok h
  obtain ⟨duration, hduration, h⟩ := bind_eq_ok h
  have layout : arguments = settings.enginePath :: "-y" :: "-hide_banner" :: "-nostdin" ::
      "-nostats" :: "-ss" :: seek :: "-i" :: job.source ::
      (Options.words (("-t", duration) :: (chainOptions graph ++ encoding)) ++ [output]) := by
    rw [← Except.ok.inj h, chainOptions]
    cases graph.videoFilter? <;> cases graph.audioFilter? <;> rfl
  have input : ∀ words, readInput? ("-y" :: "-hide_banner" :: "-nostdin" :: "-nostats" :: "-ss" ::
      seek :: "-i" :: job.source :: words) = some ([("-ss", seek)], job.source, words) := by
    intro words
    simp [readInput?, switches, isOption]
  have names : ∀ option ∈ ("-t", duration) :: (chainOptions graph ++ encoding),
      HasValue option.1 := by
    have valued : ∀ name ∈ excerptOptions, HasValue name := by decide
    exact fun option hmem => valued _ (mem_excerptOptions hmem)
  have hrange : TimeRange.ofMoment job.moment job.spec = .ok range := by
    cases hresult : TimeRange.ofMoment job.moment job.spec with
    | error error =>
      rw [hresult] at hmapped
      cases hmapped
    | ok found =>
      rw [hresult] at hmapped
      rw [Except.ok.inj hmapped]
  refine ⟨range, graph, seek, duration, hrange, hgraph, hseek, hduration, ?_⟩
  rw [layout, Invocation.read?, input]
  change (readOutput? _ >>= _) = _
  rw [readOutput?_words names]
  rfl

/-- The excerpt is that of the job: its source, its times counted in milliseconds, its factor. -/
structure Job.Takes (job : Job) (excerpt : Excerpt) : Prop where
  source : excerpt.source = job.source
  seek : Timestamp.milliseconds job.start = .ok excerpt.seek
  limit : Timestamp.milliseconds (job.finish - job.start) = .ok excerpt.limit
  factor : excerpt.factor = job.factor?

theorem excerpt_of_command (hspec : job.spec.WellFormed)
    (h : command settings job output = .ok arguments) :
    (¬ job.TrimmedAway ∧ ¬ job.Frozen) ∧
      ∃ excerpt, Excerpt.read? arguments = some excerpt ∧ job.Takes excerpt := by
  obtain ⟨range, graph, seekText, durationText, hrange, hgraph, hseek, hduration, hread⟩ :=
    read?_command h
  have htrim : ¬ job.TrimmedAway := by
    intro htrim
    rw [range_of_trimmedAway htrim] at hrange
    cases hrange
  have hfrozen : ¬ job.Frozen := by
    intro hfrozen
    rw [graph_of_frozen hspec _ hfrozen] at hgraph
    cases hgraph
  refine ⟨⟨htrim, hfrozen⟩, ?_⟩
  obtain rfl := Except.ok.inj (hrange.symm.trans (range_of_not_trimmedAway htrim))
  obtain ⟨seek, hcounted, hreadSeek⟩ := Timestamp.format_reads hseek
  obtain ⟨limit, hlasting, hreadLimit⟩ := Timestamp.format_reads hduration
  have hcolors : ∀ overlay ∈ job.spec.textOverlays, PlainText (Color.engineText overlay.color) := by
    intro overlay hmem
    obtain ⟨digits, hcolor, hdigits⟩ := (hspec.overlays overlay hmem).color
    exact PlainText.engineText hcolor (Color.isDigits_iff.mpr hdigits)
  have chain := videoFilter?_reads hcolors hgraph
  refine ⟨⟨job.source, seek, limit, job.factor?⟩, ?_, rfl, hcounted, hlasting, rfl⟩
  obtain ⟨hlimit, hvideo⟩ := value?_chainOptions graph durationText
  have seekOption : Options.value? [("-ss", seekText)] "-ss" = some seekText := rfl
  have known : (∀ option ∈ [("-ss", seekText)], option.1 = "-ss") ∧
      ∀ option ∈ ("-t", durationText) :: (chainOptions graph ++ encoding),
        option.1 ∈ excerptOptions := by
    refine ⟨?_, fun option hmem => mem_excerptOptions hmem⟩
    intro option hmem
    rw [List.mem_singleton.mp hmem]
  rw [Excerpt.read?, hread]
  simp only [Option.bind_eq_bind, Option.bind_some, seekOption, hlimit, hvideo, chain, if_pos known,
    hreadSeek, hreadLimit, chainFactor?_editCalls hspec]
  rfl

theorem factor?_pos (hspec : job.spec.WellFormed) (hmoves : ¬ job.Frozen) {f : ℚ}
    (hf : f ∈ job.factor?) : 0 < f := by
  rw [Job.factor?] at hf
  split at hf
  · obtain rfl := Option.some.inj hf
    exact one_pos
  · next hone =>
    obtain ⟨n, hn, rfl⟩ := Option.map_eq_some_iff.mp hf
    have hsome : n ≠ 0 := by
      rintro rfl
      refine hmoves ⟨fun hsame => hone ((speed_eq_one_iff hspec).mpr hsame), ?_⟩
      exact (SpeedChange.frozen_iff hspec.speed.1 hspec.speed.2).mp hn
    have hpos : 0 < n := Nat.pos_of_ne_zero hsome
    positivity

theorem Excerpt.shows_iff {excerpt : Excerpt} {f t : ℚ} (hf : f ∈ excerpt.factor) (hpos : 0 < f) :
    excerpt.Shows t ↔ excerpt.seek ≤ t ∧ t < excerpt.seek + excerpt.limit / f := by
  have late : f * (t - excerpt.seek) < excerpt.limit ↔ t < excerpt.seek + excerpt.limit / f := by
    rw [← sub_lt_iff_lt_add', lt_div_iff₀ hpos, mul_comm]
  rw [← late]
  constructor
  · rintro ⟨g, hg, hseek, hless⟩
    obtain rfl : g = f := Option.some.inj (hg.symm.trans hf)
    exact ⟨hseek, hless⟩
  · rintro ⟨hseek, hless⟩
    exact ⟨f, hf, hseek, hless⟩

theorem Excerpt.shows_all_more_less {excerpt : Excerpt} {f : ℚ} (hf : f ∈ excerpt.factor)
    (hpos : 0 < f) (hlimit : 0 < excerpt.limit) :
    (f = 1 → ∀ t, excerpt.Shows t ↔ excerpt.seek ≤ t ∧ t < excerpt.seek + excerpt.limit) ∧
    (f < 1 → excerpt.Shows (excerpt.seek + excerpt.limit)) ∧
    (1 < f → ∃ t : ℚ, excerpt.seek ≤ t ∧ t < excerpt.seek + excerpt.limit ∧ ¬ excerpt.Shows t) := by
  have hlimit : (0 : ℚ) < excerpt.limit := by exact_mod_cast hlimit
  refine ⟨?_, ?_, ?_⟩
  · rintro rfl t
    rw [shows_iff hf hpos, div_one]
  · intro hless
    rw [shows_iff hf hpos]
    refine ⟨le_add_of_nonneg_right hlimit.le, add_lt_add_right ?_ _⟩
    rw [lt_div_iff₀ hpos]
    exact mul_lt_of_lt_one_right hlimit hless
  · intro hmore
    refine ⟨excerpt.seek + excerpt.limit / f, ?_, ?_, ?_⟩
    · exact le_add_of_nonneg_right (div_nonneg hlimit.le hpos.le)
    · exact add_lt_add_right (div_lt_self hlimit hmore) _
    · rw [shows_iff hf hpos]
      exact fun hshows => lt_irrefl _ hshows.2

/-- A clip lasts as long as what the trims leave of its moment, whatever the speed. So it shows just
that of the source where the times of the frames are left alone, more when they are drawn together,
and less when they are drawn apart. -/
theorem command_shows (hmoment : job.moment.WellFormed) (hspec : job.spec.WellFormed)
    (h : command settings job output = .ok arguments) :
    ∃ excerpt, Excerpt.read? arguments = some excerpt ∧ excerpt.source = job.source ∧
      |(excerpt.seek : ℚ) - 1000 * job.start.value| ≤ 1 / 2 + 1000 * job.start.value / 2 ^ 53 ∧
      |(excerpt.limit : ℚ) - 1000 * (job.finish - job.start).value|
        ≤ 1 / 2 + 1000 * (job.finish - job.start).value / 2 ^ 53 ∧
      |(excerpt.seek + excerpt.limit : ℚ) - 1000 * job.finish.value|
        ≤ 1 + 1000 * job.finish.value / 2 ^ 51 ∧
      excerpt.factor = job.factor? ∧
      ∀ f ∈ excerpt.factor, 0 < f ∧
        (∀ t, excerpt.Shows t ↔ excerpt.seek ≤ t ∧ t < excerpt.seek + excerpt.limit / f) ∧
        (0 < excerpt.limit →
          (f = 1 → ∀ t, excerpt.Shows t ↔ excerpt.seek ≤ t ∧ t < excerpt.seek + excerpt.limit) ∧
          (f < 1 → excerpt.Shows (excerpt.seek + excerpt.limit)) ∧
          (1 < f → ∃ t : ℚ, excerpt.seek ≤ t ∧ t < excerpt.seek + excerpt.limit ∧
            ¬ excerpt.Shows t)) := by
  obtain ⟨⟨htrim, hmoves⟩, excerpt, hread, htakes⟩ := excerpt_of_command hspec h
  have hinside := range_inside hmoment hspec htrim
  have hstart : 0 ≤ job.start.value := hmoment.startTime.2.trans hinside.start_le
  refine ⟨excerpt, hread, htakes.source, Timestamp.milliseconds_near htakes.seek,
    Timestamp.milliseconds_near htakes.limit, hinside.near hstart htakes.seek htakes.limit,
    htakes.factor, ?_⟩
  intro f hf
  have hpos : 0 < f := factor?_pos hspec hmoves (htakes.factor ▸ hf)
  exact ⟨hpos, fun t => Excerpt.shows_iff hf hpos, Excerpt.shows_all_more_less hf hpos⟩

end Commands

namespace Sample

def clip (start finish : Binary64) (spec : EditSpec) : Job :=
  ⟨"a", "/in/a.mp4", ⟨start, finish⟩, spec, "clip.mp4"⟩

/-- A job of data that pass the checks, with its arguments and the milliseconds of its clip. -/
def Renders (job : Job) (edits : Json.Value) (arguments : List String) (limit : Nat) : Prop :=
  (Moment.ofData job.moment.toJson).value? = some job.moment ∧
    (EditSpec.ofData edits).value? = some job.spec ∧
    command settings job "/out/clip.mp4" = .ok arguments ∧
    Timestamp.milliseconds (job.finish - job.start) = .ok limit

instance (job : Job) (edits : Json.Value) (arguments : List String) (limit : Nat) :
    Decidable (Renders job edits arguments limit) :=
  inferInstanceAs (Decidable (_ ∧ _ ∧ _ ∧ _))

namespace Renders

variable {job : Job} {edits : Json.Value} {arguments : List String} {limit : Nat}
  (h : Renders job edits arguments limit)

include h

theorem moment : job.moment.WellFormed :=
  Moment.wellFormed (Validation.Checked.eq_valid_of_value?_eq_some h.1)

theorem spec : job.spec.WellFormed :=
  EditSpec.wellFormed (Validation.Checked.eq_valid_of_value?_eq_some h.2.1)

theorem excerpt : ∃ excerpt, Excerpt.read? arguments = some excerpt ∧
    excerpt.limit = limit ∧ excerpt.factor = job.factor? := by
  obtain ⟨-, excerpt, hread, htakes⟩ := excerpt_of_command h.spec h.2.2.1
  exact ⟨excerpt, hread, Except.ok.inj (htakes.limit.symm.trans h.2.2.2), htakes.factor⟩

end Renders

def hastened : Job := clip (ofNat 0) (ofNat 10) { EditSpec.untouched with speed := ofNat 2 }

def hastenedArguments : List String :=
  ["ffmpeg", "-y", "-hide_banner", "-nostdin", "-nostats", "-ss", "00:00:00.000", "-i",
    "/in/a.mp4", "-t", "00:00:10.000", "-vf", "setpts=0.500000*PTS", "-af", "atempo=2", "-c:v",
    "libx264", "-preset", "fast", "-crf", "22", "-pix_fmt", "yuv420p", "-c:a", "aac", "-b:a",
    "128k", "-movflags", "+faststart", "-f", "mp4", "/out/clip.mp4"]

theorem hastened_computes :
    Renders hastened (.object [("speed", .number (ofNat 2))]) hastenedArguments 10000 ∧
      hastened.finish - hastened.start = ofNat 10 ∧
      Binary64.eq hastened.spec.speed one = false ∧
      (one / hastened.spec.speed).roundedPlaces? 6 = some 500000 := by
  decide +kernel

theorem hastened_factor : hastened.factor? = some (1 / 2) := by
  obtain ⟨-, -, changes, rounded⟩ := hastened_computes
  rw [Job.factor?, if_neg (Bool.not_eq_true _ ▸ changes), rounded, Option.map_some]
  norm_num

theorem hastened_duration : (hastened.finish - hastened.start).value = 10 := by
  rw [hastened_computes.2.1, (isWhole_ofNat (by decide)).value, Nat.cast_ofNat]

def plainArguments (seek duration : String) : List String :=
  ["ffmpeg", "-y", "-hide_banner", "-nostdin", "-nostats", "-ss", seek, "-i", "/in/a.mp4", "-t",
    duration, "-c:v", "libx264", "-preset", "fast", "-crf", "22", "-pix_fmt", "yuv420p", "-c:a",
    "aac", "-b:a", "128k", "-movflags", "+faststart", "-f", "mp4", "/out/clip.mp4"]

/-- As long as a number of milliseconds of 55 bits. -/
def lengthy : Job := clip (ofNat 0) (ofQuotient 72057594037929 4) EditSpec.untouched

def lengthyRank : Nat := nearestRank (72057594037929 * unitsPerOne) 4

theorem lengthy_computes :
    Renders lengthy (.object []) (plainArguments "00:00:00.000" "5003999585:58:02.248")
        18014398509482248 ∧
      Binary64.eq lengthy.spec.speed one = true ∧
      lengthy.finish - lengthy.start = ofQuotient (72057594037929 : Nat) (4 : Nat) ∧
      lengthyRank < rankLimit ∧ unitsAt lengthyRank * 4 = 72057594037929 * unitsPerOne := by
  decide +kernel

theorem lengthy_factor : lengthy.factor? = some 1 := by
  rw [Job.factor?, if_pos lengthy_computes.2.1]

theorem lengthy_duration : (lengthy.finish - lengthy.start).value = 72057594037929 / 4 := by
  obtain ⟨-, -, exact, hlimit, hunits⟩ := lengthy_computes
  rw [exact, value_ofQuotient (by decide) hlimit hunits, Nat.cast_ofNat, Nat.cast_ofNat]

end Sample

/-- The clip of ten seconds shows twenty seconds of its source. -/
theorem command_shows_hastened : ∃ excerpt, Excerpt.read? Sample.hastenedArguments = some excerpt ∧
    excerpt.factor = some (1 / 2) ∧
    ∀ t, excerpt.Shows t ↔ excerpt.seek ≤ t ∧ t < excerpt.seek + 20000 := by
  obtain ⟨excerpt, hread, -, -, hlimit, -, hfactor, hshows⟩ := command_shows
    Sample.hastened_computes.1.moment Sample.hastened_computes.1.spec
    Sample.hastened_computes.1.2.2.1
  have limit : excerpt.limit = 10000 := by
    rw [Sample.hastened_duration] at hlimit
    have less : (excerpt.limit : ℚ) < 10001 := by linarith [(abs_le.mp hlimit).2]
    have more : (9999 : ℚ) < excerpt.limit := by linarith [(abs_le.mp hlimit).1]
    have less : excerpt.limit < 10001 := by exact_mod_cast less
    have more : 9999 < excerpt.limit := by exact_mod_cast more
    omega
  rw [Sample.hastened_factor] at hfactor
  refine ⟨excerpt, hread, hfactor, ?_⟩
  obtain ⟨-, hshows, -⟩ := hshows (1 / 2) hfactor
  intro t
  rw [hshows, limit]
  norm_num

/-- By its arguments the clip of a job is cut off more than a millisecond from where the end of its
moment comes up. -/
def Job.CutElsewhere (job : Job) (arguments : List String) : Prop :=
  (∃ settings output, command settings job output = .ok arguments) ∧
    ∃ excerpt, Excerpt.read? arguments = some excerpt ∧ ∃ f ∈ excerpt.factor,
      ¬ |(excerpt.limit : ℚ) - 1000 * (f * (job.finish - job.start).value)| ≤ 1

/-- At double speed a clip is cut off twice as late as its moment ends in it. Where nothing is
changed it is cut off there as well as a number of so many bits can tell. -/
theorem cut_elsewhere :
    (Sample.hastened.moment.WellFormed ∧ Sample.hastened.spec.WellFormed ∧
      Sample.hastened.CutElsewhere Sample.hastenedArguments) ∧
    Sample.lengthy.moment.WellFormed ∧ Sample.lengthy.spec.WellFormed ∧
      Sample.lengthy.CutElsewhere
        (Sample.plainArguments "00:00:00.000" "5003999585:58:02.248") := by
  constructor
  · have renders := Sample.hastened_computes.1
    obtain ⟨excerpt, hread, hlimit, hfactor⟩ := renders.excerpt
    refine ⟨renders.moment, renders.spec, ⟨_, _, renders.2.2.1⟩, excerpt, hread, 1 / 2,
      hfactor.trans Sample.hastened_factor, ?_⟩
    rw [hlimit, Sample.hastened_duration]
    norm_num [abs_le]
  · have renders := Sample.lengthy_computes.1
    obtain ⟨excerpt, hread, hlimit, hfactor⟩ := renders.excerpt
    refine ⟨renders.moment, renders.spec, ⟨_, _, renders.2.2.1⟩, excerpt, hread, 1,
      hfactor.trans Sample.lengthy_factor, ?_⟩
    rw [hlimit, Sample.lengthy_duration]
    norm_num [abs_le]

section Lengths

variable {settings : Settings} {job : Job} {output : String} {arguments : List String}

/-- A clip lasts some time if what the trims leave of its moment is more than half a millisecond. -/
theorem command_lasts (hmoment : job.moment.WellFormed) (hspec : job.spec.WellFormed)
    (h : command settings job output = .ok arguments) :
    ∃ excerpt, Excerpt.read? arguments = some excerpt ∧
      (0 < excerpt.limit ↔ lt (ofQuotient 1 2000) (job.finish - job.start) = true) := by
  obtain ⟨⟨htrim, -⟩, excerpt, hread, htakes⟩ := excerpt_of_command hspec h
  have hinside := range_inside hmoment hspec htrim
  have half : (ofQuotient 1 2000).isFinite = true := by
    obtain ⟨half, hlimit, hhalf, -⟩ := Timestamp.exists_half
    rw [hhalf]
    rfl
  have empty := Timestamp.milliseconds_eq_zero_iff hinside.duration_pos htakes.limit
  refine ⟨excerpt, hread, ?_⟩
  rw [Nat.pos_iff_ne_zero, ne_eq, empty, le_iff hinside.finite.2.1 half,
    lt_iff half hinside.finite.2.1, not_le]

end Lengths

namespace Sample

/-- Ten seconds of which the trims leave a sliver, or nothing. -/
def sliver (trimEnd : Binary64) : Job :=
  clip (ofNat 10) (ofNat 20)
    { EditSpec.untouched with trimStart := ofNat 6, trimEnd := trimEnd }

def sliverEdits (trimEnd : Binary64) : Json.Value :=
  .object [("trimStart", .number (ofNat 6)), ("trimEnd", .number trimEnd)]

def thin : Binary64 := ofQuotient (-39994) 10000

theorem thin_computes :
    Renders (sliver thin) (sliverEdits thin) (plainArguments "00:00:16.000" "00:00:00.001") 1 ∧
      lt (ofQuotient 1 2000) ((sliver thin).finish - (sliver thin).start) = true := by
  decide +kernel

def thinner : Binary64 := ofQuotient (-39996) 10000

theorem thinner_renders : Renders (sliver thinner) (sliverEdits thinner)
    (plainArguments "00:00:16.000" "00:00:00.000") 0 := by
  decide +kernel

end Sample

theorem command_lasts_thin : ∃ excerpt,
    Excerpt.read? (Sample.plainArguments "00:00:16.000" "00:00:00.001") = some excerpt ∧
      0 < excerpt.limit := by
  obtain ⟨renders, more⟩ := Sample.thin_computes
  obtain ⟨excerpt, hread, hlasts⟩ := command_lasts renders.moment renders.spec renders.2.2.1
  exact ⟨excerpt, hread, hlasts.mpr more⟩

/-- Something is left of the moment, and the clip ends as it begins. -/
theorem lasts_not_thinner :
    (Sample.sliver Sample.thinner).moment.WellFormed ∧
      (Sample.sliver Sample.thinner).spec.WellFormed ∧
      command Sample.settings (Sample.sliver Sample.thinner) "/out/clip.mp4"
        = .ok (Sample.plainArguments "00:00:16.000" "00:00:00.000") ∧
      ∃ excerpt, Excerpt.read? (Sample.plainArguments "00:00:16.000" "00:00:00.000")
          = some excerpt ∧ excerpt.limit = 0 := by
  have renders := Sample.thinner_renders
  obtain ⟨excerpt, hread, hlimit, -⟩ := renders.excerpt
  exact ⟨renders.moment, renders.spec, renders.2.2.1, excerpt, hread, hlimit⟩

end Rendering

end ClipRender
