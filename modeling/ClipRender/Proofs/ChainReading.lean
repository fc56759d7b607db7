import ClipRender.Proofs.ArgumentReading
import ClipRender.Proofs.WellFormed
import Mathlib.Data.List.Forall2

set_option autoImplicit false

/-!
The video filters of an edit against the engine's reading of them. The engine finds the filters that
the edits ask for, in their order, with the arguments they ask for, and nothing else. No text on the
frame and no path of a font can add to them or take from them.
-/

namespace ClipRender.Filter

theorem eq_or_exists_of_mem_intercalate {α : Type} {sep x : α} {parts : List (List α)}
    (h : x ∈ [sep].intercalate parts) : x = sep ∨ ∃ part ∈ parts, x ∈ part := by
  induction parts with
  | nil => simp at h
  | cons part parts ih =>
    cases parts with
    | nil => exact .inr ⟨part, List.mem_cons_self, by simpa using h⟩
    | cons next rest =>
      rw [List.intercalate_cons_cons, List.mem_append, List.mem_append, List.mem_singleton] at h
      rcases h with (hpart | hsep) | hrest
      · exact .inr ⟨part, List.mem_cons_self, hpart⟩
      · exact .inl hsep
      · rcases ih hrest with hsep | ⟨other, hother, hmem⟩
        · exact .inl hsep
        · exact .inr ⟨other, List.mem_cons_of_mem part hother, hmem⟩

theorem exists_marks_of_gives {texts : List (List Char)} {arguments : List Argument}
    (h : List.Forall₂ Gives texts arguments) :
    ∃ marks : List (List Mark), List.Forall₂ Unquotes texts marks ∧
      (∀ ms ∈ marks, ⟨':', true⟩ ∉ ms) ∧ marks.map Argument.read = arguments := by
  induction h with
  | nil => exact ⟨[], .nil, by simp, rfl⟩
  | cons head _ ih =>
    obtain ⟨ms, hms, hcolon, rfl⟩ := head
    obtain ⟨marks, hmarks, hcolons, rfl⟩ := ih
    exact ⟨ms :: marks, .cons hms hmarks, by simpa using ⟨hcolon, hcolons⟩, rfl⟩

theorem Call.read_arguments {name : String} (hname : '=' ∉ name.toList)
    {texts : List (List Char)} {arguments : List Argument}
    (h : List.Forall₂ Gives texts arguments) (hsome : arguments ≠ []) :
    Call.read (name.toList ++ ['='] ++ [':'].intercalate texts) = ⟨name, arguments⟩ := by
  obtain ⟨marks, hmarks, hcolons, rfl⟩ := exists_marks_of_gives h
  have hne : marks ≠ [] := by
    rintro rfl
    exact hsome rfl
  have isName : ∀ c ∈ name.toList, decide (c ≠ '=') = true := by
    intro c hc
    rw [decide_eq_true_eq]
    rintro rfl
    exact hname hc
  have reads := (Unquotes.intercalate (by decide : ':' ≠ '\\') (by decide) hmarks).unquote_eq
  rw [Call.read, List.append_assoc, List.singleton_append, List.takeWhile_append_of_pos isName,
    List.dropWhile_append_of_pos isName]
  simp [reads, List.splitOn_intercalate _ hcolons hne]

/-- Both readers together find one filter in the text. -/
def ReadsAsCall (cs : List Char) (call : Call) : Prop :=
  ∃ text, Carries cs text ∧ Call.read text = call

def ReadInOrder (options : List String) (arguments : List Argument) : Prop :=
  List.Forall₂ (fun option argument => ReadsAs option.toList argument) options arguments

namespace ReadInOrder

theorem none : ReadInOrder [] [] := List.Forall₂.nil

theorem cons {option : String} {argument : Argument} {options : List String}
    {arguments : List Argument} (h : ReadsAs option.toList argument)
    (k : ReadInOrder options arguments) :
    ReadInOrder (option :: options) (argument :: arguments) := List.Forall₂.cons h k

theorem one {option : String} {argument : Argument} (h : ReadsAs option.toList argument) :
    ReadInOrder [option] [argument] := cons h none

theorem append {options more : List String} {arguments others : List Argument}
    (h : ReadInOrder options arguments) (k : ReadInOrder more others) :
    ReadInOrder (options ++ more) (arguments ++ others) := List.rel_append h k

end ReadInOrder

theorem readsAsCall_withOptions {name : String} (hname : isArgumentName name = true)
    {options : List String} {arguments : List Argument}
    (h : ReadInOrder options arguments) (hsome : arguments ≠ []) :
    ReadsAsCall (Node.withOptions name options).toList ⟨name, arguments⟩ := by
  have parts : ∃ texts, List.Forall₂ Carries (options.map String.toList) texts ∧
      List.Forall₂ Gives texts arguments := by
    induction h with
    | nil => exact absurd rfl hsome
    | @cons option argument options arguments head tail ih =>
      obtain ⟨text, hcarries, hgives⟩ := head
      cases tail with
      | nil => exact ⟨[text], .cons hcarries .nil, .cons hgives .nil⟩
      | cons next rest =>
        obtain ⟨texts, hall, kall⟩ := ih (by simp)
        exact ⟨text :: texts, .cons hcarries hall, .cons hgives kall⟩
  obtain ⟨texts, hcarries, hgives⟩ := parts
  have whole : (Node.withOptions name options).toList
      = name.toList ++ ['='] ++ [':'].intercalate (options.map String.toList) := by
    simp [Node.withOptions, String.toList_intercalate]
  have noSign : '=' ∉ name.toList := by
    intro hmem
    rw [isArgumentName, Bool.and_eq_true, List.all_eq_true] at hname
    exact absurd (hname.2 _ hmem) (by decide)
  refine ⟨_, ?_, Call.read_arguments noSign hgives hsome⟩
  rw [whole]
  exact (ReadsAs.carries_label hname).append (Carries.intercalate (by decide) hcarries)

theorem exists_marks_of_readsAsCall {texts : List (List Char)} {calls : List Call}
    (h : List.Forall₂ ReadsAsCall texts calls) :
    ∃ marks : List (List Mark), List.Forall₂ Unquotes texts marks ∧
      (∀ ms ∈ marks, ∀ m ∈ ms, m.bare = true → isGraphSpecial m.char = false) ∧
      marks.map (fun ms => Call.read (Mark.chars ms)) = calls := by
  induction h with
  | nil => exact ⟨[], .nil, by simp, rfl⟩
  | cons head _ ih =>
    obtain ⟨_, ⟨ms, hms, rfl, hquiet⟩, rfl⟩ := head
    obtain ⟨marks, hmarks, hall, rfl⟩ := ih
    refine ⟨ms :: marks, .cons hms hmarks, ?_, rfl⟩
    intro ns hns
    rcases List.mem_cons.mp hns with rfl | hns
    · exact hquiet
    · exact hall ns hns

theorem readChain?_intercalate {texts : List (List Char)} {calls : List Call}
    (h : List.Forall₂ ReadsAsCall texts calls) (hsome : calls ≠ []) :
    Call.readChain? ([','].intercalate texts) = some calls := by
  obtain ⟨marks, hmarks, hquiet, rfl⟩ := exists_marks_of_readsAsCall h
  have hne : marks ≠ [] := by
    rintro rfl
    exact hsome rfl
  have noComma : ∀ ms ∈ marks, (⟨',', true⟩ : Mark) ∉ ms := by
    intro ms hms hcomma
    exact absurd (hquiet ms hms _ hcomma rfl) (by decide)
  have oneChain : ([⟨',', true⟩].intercalate marks).any Call.endsChain = false := by
    rw [List.any_eq_false]
    intro m hm hends
    rcases eq_or_exists_of_mem_intercalate hm with rfl | ⟨ms, hms, hmem⟩
    · exact absurd hends (by decide)
    · simp only [Call.endsChain, Bool.and_eq_true, Bool.or_eq_true, decide_eq_true_eq] at hends
      have hspecial := hquiet ms hms m hmem hends.1
      rcases hends.2 with (hchar | hchar) | hchar <;> simp [isGraphSpecial, hchar] at hspecial
  rw [Call.readChain?, (Unquotes.intercalate (by decide) (by decide) hmarks).unquote_eq]
  simp [oneChain, List.splitOn_intercalate _ noComma hne]

/-! What the edits ask for -/

def ratioOf : AspectRatio → Option Ratio
  | .portrait => some ⟨9, 16⟩
  | .landscape => some ⟨16, 9⟩
  | .square => some ⟨1, 1⟩
  | .classic => some ⟨4, 3⟩
  | .uncropped => none

def cropCall (ratio : Ratio) : Call where
  filter := "crop"
  arguments :=
    [⟨none, (Crop.width ratio).text⟩, ⟨none, (Crop.height ratio).text⟩, ⟨none, "(iw-out_w)/2"⟩,
     ⟨none, "(ih-out_h)/2"⟩]

def adjustment (x : Binary64) (name value : String) : List Argument :=
  if Binary64.eq x Binary64.zero then [] else [⟨some name, value⟩]

def colorArguments (spec : EditSpec) : List Argument :=
  adjustment spec.brightness "brightness" (numberText spec.brightness)
    ++ adjustment spec.contrast "contrast" (Decimal.fixed 4 (Binary64.one + spec.contrast))
    ++ adjustment spec.saturation "saturation" (Decimal.fixed 4 (Binary64.one + spec.saturation))

def colorCalls (spec : EditSpec) : List Call :=
  if colorArguments spec = [] then [] else [⟨"eq", colorArguments spec⟩]

def speedCalls (spec : EditSpec) : List Call :=
  if Binary64.eq spec.speed Binary64.one then []
  else [⟨"setpts", [⟨none, Decimal.fixed 6 (Binary64.one / spec.speed) ++ "*PTS"⟩]⟩]

def fontArguments : Option String → List Argument
  | some file => if file = "" then [] else [⟨some "fontfile", file⟩]
  | none => []

def borderArguments (overlay : TextOverlay) : List Argument :=
  if overlay.bold then
    [⟨some "borderw", "2"⟩, ⟨some "bordercolor", Color.engineText overlay.color⟩]
  else []

def windowArguments (overlay : TextOverlay) : List Argument :=
  match overlay.window? with
  | some (start, finish) =>
    [⟨some "enable", "between(t," ++ numberText start ++ "," ++ numberText finish ++ ")"⟩]
  | none => []

def placeText (side : String) (share : Option Binary64) (otherwise : String) : String :=
  match share with
  | some share => side ++ "*" ++ numberText share
  | none => otherwise

def overlayCall (fontFile : Option String) (overlay : TextOverlay) : Call where
  filter := "drawtext"
  arguments :=
    fontArguments fontFile
      ++ [⟨some "text", overlay.text⟩, ⟨some "expansion", "none"⟩,
          ⟨some "fontsize", toString overlay.fontSize⟩,
          ⟨some "fontcolor", Color.engineText overlay.color⟩,
          ⟨some "x", placeText "w" overlay.x "(w-text_w)/2"⟩,
          ⟨some "y", placeText "h" overlay.y "h*0.85"⟩]
      ++ borderArguments overlay ++ windowArguments overlay

/-- The video filters that the edits ask for, as the engine should see them. -/
def editCalls (fontFile : Option String) (spec : EditSpec) : List Call :=
  ((ratioOf spec.aspectRatio).map cropCall).toList ++ colorCalls spec ++ speedCalls spec
    ++ spec.textOverlays.map (overlayCall fontFile)

theorem cropFor_name (ratio : AspectRatio) :
    Graph.cropFor (some ratio.name) = .ok ((ratioOf ratio).map Node.crop) := by
  cases ratio <;> rfl

/-- The graph of an edit with the change of speed that is made for it. -/
def Graph.paced (fontFile : Option String) (spec : EditSpec) (speed : Option SpeedChange) :
    Graph where
  video :=
    ((ratioOf spec.aspectRatio).map Node.crop).toList
      ++ ((Graph.colorFor spec).map Node.color).toList
      ++ (speed.map fun change => Node.timestamps change.factor).toList
      ++ spec.textOverlays.map fun overlay => Node.drawText (Graph.drawnText fontFile overlay)
  audio := (speed.map fun change => Node.audioTempo change.tempo).toList

/-- Nothing but the speed of an edit is refused. -/
theorem Graph.ofSpec_eq (fontFile : Option String) (spec : EditSpec) : Graph.ofSpec fontFile spec
    = ((SpeedChange.ofSpeed spec.speed).mapError Failure.reported).map
        (Graph.paced fontFile spec) := by
  rw [Graph.ofSpec, cropFor_name]
  cases SpeedChange.ofSpeed spec.speed <;> rfl

theorem readsAsCall_crop (ratio : Ratio) :
    ReadsAsCall (Node.crop ratio).render.toList (cropCall ratio) := by
  have same : (Node.crop ratio).render
      = Node.withOptions "crop"
          [Crop.escapeCommas (Crop.width ratio).text, Crop.escapeCommas (Crop.height ratio).text,
           "(iw-out_w)/2", "(ih-out_h)/2"] := by
    apply String.toList_inj.mp
    have across : (Crop.margin .inWidth .outWidth).text = "(iw-out_w)/2" := by decide
    have down : (Crop.margin .inHeight .outHeight).text = "(ih-out_h)/2" := by decide
    simp [Node.render, Crop.render, Node.withOptions, across, down]
  rw [same]
  apply readsAsCall_withOptions (by decide)
  · refine .cons ?_ (.cons ?_ (.cons ?_ (.cons ?_ .nil)))
    · exact ReadsAs.escapedCommas (ExpressionText.textAt _ 0)
    · exact ReadsAs.escapedCommas (ExpressionText.textAt _ 0)
    · exact ReadsAs.positional (PlainText.literal (by decide))
    · exact ReadsAs.positional (PlainText.literal (by decide))
  · simp

theorem readInOrder_adjustment {label name : String} {text : Binary64 → String}
    (hlabel : label.toList = name.toList ++ ['=']) (hname : isArgumentName name = true)
    (h : ∀ x, PlainText (text x)) (x : Binary64) :
    ReadInOrder
      ((Graph.nonZero x).map fun x => label ++ text x).toList (adjustment x name (text x)) := by
  rw [Graph.nonZero, adjustment]
  by_cases hzero : Binary64.eq x Binary64.zero = true
  · simpa [hzero] using ReadInOrder.none
  · simpa [hzero] using ReadInOrder.one (ReadsAs.named hlabel hname (h x))

def changeOf (spec : EditSpec) : ColorChange :=
  ⟨Graph.nonZero spec.brightness, (Graph.nonZero spec.contrast).map (Binary64.one + ·),
   (Graph.nonZero spec.saturation).map (Binary64.one + ·)⟩

theorem readInOrder_changeOf (spec : EditSpec) :
    ReadInOrder (changeOf spec).options (colorArguments spec) := by
  have brightness := readInOrder_adjustment (by decide : "brightness=".toList = "brightness".toList ++ _)
    (by decide) PlainText.numberText spec.brightness
  have contrast := readInOrder_adjustment (by decide : "contrast=".toList = "contrast".toList ++ _)
    (by decide) (fun x => PlainText.fixed 4 (Binary64.one + x)) spec.contrast
  have saturation := readInOrder_adjustment (by decide : "saturation=".toList = "saturation".toList ++ _)
    (by decide) (fun x => PlainText.fixed 4 (Binary64.one + x)) spec.saturation
  have all := (brightness.append contrast).append saturation
  simpa [ColorChange.options, changeOf, colorArguments, Option.map_map, Function.comp_def] using all

theorem colorFor_eq (spec : EditSpec) :
    Graph.colorFor spec = if colorArguments spec = [] then none else some (changeOf spec) := by
  have zero : ∀ (x : Binary64) (name value : String),
      adjustment x name value = [] ↔ (Graph.nonZero x).isNone = true := by
    intro x name value
    rw [adjustment, Graph.nonZero]
    by_cases hzero : Binary64.eq x Binary64.zero = true <;> simp [hzero]
  simp only [Graph.colorFor, changeOf, colorArguments, List.append_eq_nil_iff, zero,
    Option.isNone_map, Bool.and_eq_true]

theorem readsAsCall_color (spec : EditSpec) (hsome : colorArguments spec ≠ []) :
    ReadsAsCall (Node.color (changeOf spec)).render.toList ⟨"eq", colorArguments spec⟩ :=
  readsAsCall_withOptions (by decide) (readInOrder_changeOf spec) hsome

theorem readsAsCall_timestamps (factor : Binary64) :
    ReadsAsCall (Node.timestamps factor).render.toList
      ⟨"setpts", [⟨none, Decimal.fixed 6 factor ++ "*PTS"⟩]⟩ := by
  have same : (Node.timestamps factor).render
      = Node.withOptions "setpts" [Decimal.fixed 6 factor ++ "*PTS"] := by
    apply String.toList_inj.mp
    simp [Node.render, Node.withOptions]
  rw [same]
  apply readsAsCall_withOptions (by decide)
  · exact .cons (ReadsAs.positional ((PlainText.fixed 6 factor).append
      (PlainText.literal (by decide)))) .nil
  · simp

theorem readsAsCall_speed {spec : EditSpec} {speed : Option SpeedChange}
    (h : SpeedChange.ofSpeed spec.speed = .ok speed) :
    List.Forall₂ ReadsAsCall
      ((speed.map fun change => Node.timestamps change.factor).toList.map fun node =>
        node.render.toList)
      (speedCalls spec) := by
  rw [SpeedChange.ofSpeed] at h
  rw [speedCalls]
  split at h
  · cases h
  · split at h
    · next hone =>
      obtain rfl := Except.ok.inj h
      simp [hone]
    · next hone =>
      dsimp only at h
      split at h
      · cases h
      · obtain rfl := Except.ok.inj h
        simpa [hone] using readsAsCall_timestamps (Binary64.one / spec.speed)

theorem given_of_ne {s : String} (h : s ≠ "") : DrawnText.given (some s) = some s := by
  simp [DrawnText.given, h]

theorem readInOrder_font (fontFile : Option String) :
    ReadInOrder
      ((DrawnText.given fontFile).map fun file => "fontfile=" ++ embedText file).toList
      (fontArguments fontFile) := by
  cases fontFile with
  | none => exact .none
  | some file =>
    by_cases hempty : file = ""
    · subst hempty
      exact .none
    · have embedded : ReadsAs ("fontfile=" ++ embedText file).toList ⟨some "fontfile", file⟩ :=
        ReadsAs.embedded (by decide) (by decide) file
      rw [given_of_ne hempty, fontArguments, if_neg hempty]
      exact .one embedded

theorem plainText_placeText {side otherwise : String} (hside : PlainText side)
    (hother : PlainText otherwise) (share : Option Binary64) :
    PlainText (placeText side share otherwise) := by
  cases share with
  | none => exact hother
  | some share =>
    exact (hside.append (PlainText.literal (by decide))).append (PlainText.numberText share)

theorem readInOrder_border {overlay : TextOverlay} {fontFile : Option String}
    (hcolor : PlainText (Color.engineText overlay.color)) :
    ReadInOrder
      (Graph.drawnText fontFile overlay).borderOptions (borderArguments overlay) := by
  rw [DrawnText.borderOptions, borderArguments, Graph.drawnText]
  by_cases hbold : overlay.bold = true
  · simp only [hbold, if_true, Graph.boldBorderWidth]
    refine ReadInOrder.cons ?_ (.one ?_)
    · exact ReadsAs.named (by decide) (by decide) (PlainText.literal (by decide))
    · exact ReadsAs.named (by decide) (by decide) hcolor
  · simpa [hbold] using ReadInOrder.none

theorem readInOrder_window (overlay : TextOverlay) :
    ReadInOrder
      ((DrawnText.given (Graph.enableFor overlay)).map fun window =>
        "enable='" ++ window ++ "'").toList
      (windowArguments overlay) := by
  rw [Graph.enableFor, windowArguments]
  cases overlay.window? with
  | none => exact .nil
  | some window =>
    obtain ⟨start, finish⟩ := window
    have comma : ExpressionText "," := ExpressionText.literal (by decide)
    have expression : ExpressionText
        ("between(t," ++ numberText start ++ "," ++ numberText finish ++ ")") := by
      refine ExpressionText.append (ExpressionText.append (ExpressionText.append
        (ExpressionText.append ?_ ?_) comma) ?_) ?_
      · exact ExpressionText.literal (by decide)
      · exact ExpressionText.ofPlain (PlainText.numberText start)
      · exact ExpressionText.ofPlain (PlainText.numberText finish)
      · exact ExpressionText.literal (by decide)
    have quoted := ReadsAs.quoted (by decide : "enable='".toList = "enable".toList ++ ['=', '\''])
      (by decide) expression
    rw [Option.map_some, given_of_ne (by simp)]
    exact .one quoted

theorem readsAsCall_drawText {overlay : TextOverlay} (fontFile : Option String)
    (hcolor : PlainText (Color.engineText overlay.color)) :
    ReadsAsCall (Node.drawText (Graph.drawnText fontFile overlay)).render.toList
      (overlayCall fontFile overlay) := by
  have across : PlainText (placeText "w" overlay.x "(w-text_w)/2") :=
    plainText_placeText (PlainText.literal (by decide)) (PlainText.literal (by decide)) overlay.x
  have down : PlainText (placeText "h" overlay.y "h*0.85") :=
    plainText_placeText (PlainText.literal (by decide)) (PlainText.literal (by decide)) overlay.y
  have asItStands : ReadsAs "expansion=none".toList ⟨some "expansion", "none"⟩ := by
    have plain : PlainText "none" := PlainText.literal (by decide)
    have whole : "expansion=none" = "expansion=" ++ "none" := by decide
    rw [whole]
    exact ReadsAs.named (by decide) (by decide) plain
  apply readsAsCall_withOptions (by decide)
  · refine (((readInOrder_font fontFile).append ?_).append (readInOrder_border hcolor)).append
      (readInOrder_window overlay)
    refine ReadInOrder.cons ?_ (.cons ?_ (.cons ?_ (.cons ?_ (.cons ?_ (.one ?_)))))
    · exact ReadsAs.embedded (by decide) (by decide) overlay.text
    · exact asItStands
    · exact ReadsAs.named (by decide) (by decide) (PlainText.integer overlay.fontSize)
    · exact ReadsAs.named (by decide) (by decide) hcolor
    · exact ReadsAs.named (by decide) (by decide) across
    · exact ReadsAs.named (by decide) (by decide) down
  · simp

theorem readsAsCall_video {spec : EditSpec} {fontFile : Option String} {graph : Graph}
    (hcolors : ∀ overlay ∈ spec.textOverlays, PlainText (Color.engineText overlay.color))
    (hgraph : Graph.ofSpec fontFile spec = .ok graph) :
    List.Forall₂ ReadsAsCall (graph.video.map fun node => node.render.toList)
      (editCalls fontFile spec) := by
  have crop : List.Forall₂ ReadsAsCall
      (((ratioOf spec.aspectRatio).map Node.crop).toList.map fun node => node.render.toList)
      ((ratioOf spec.aspectRatio).map cropCall).toList := by
    cases ratioOf spec.aspectRatio with
    | none => exact .nil
    | some ratio => exact .cons (readsAsCall_crop ratio) .nil
  have color : List.Forall₂ ReadsAsCall
      (((Graph.colorFor spec).map Node.color).toList.map fun node => node.render.toList)
      (colorCalls spec) := by
    rw [colorFor_eq, colorCalls]
    by_cases hnone : colorArguments spec = []
    · simp [hnone]
    · simpa [hnone] using readsAsCall_color spec hnone
  have texts : List.Forall₂ ReadsAsCall
      ((spec.textOverlays.map fun overlay =>
        Node.drawText (Graph.drawnText fontFile overlay)).map fun node => node.render.toList)
      (spec.textOverlays.map (overlayCall fontFile)) := by
    rw [List.map_map, List.forall₂_map_left_iff, List.forall₂_map_right_iff, List.forall₂_same]
    exact fun overlay hmem => readsAsCall_drawText fontFile (hcolors overlay hmem)
  rw [Graph.ofSpec, cropFor_name] at hgraph
  cases hspeed : SpeedChange.ofSpeed spec.speed with
  | error failure =>
    rw [hspeed] at hgraph
    contradiction
  | ok speed =>
    rw [hspeed] at hgraph
    obtain rfl := Except.ok.inj hgraph
    rw [List.map_append, List.map_append, List.map_append]
    exact List.rel_append (List.rel_append (List.rel_append crop color)
      (readsAsCall_speed hspeed)) texts

theorem videoFilter?_reads {spec : EditSpec} {fontFile : Option String} {graph : Graph}
    (hcolors : ∀ overlay ∈ spec.textOverlays, PlainText (Color.engineText overlay.color))
    (hgraph : Graph.ofSpec fontFile spec = .ok graph) :
    (graph.videoFilter?.elim (some []) fun text => Call.readChain? text.toList)
      = some (editCalls fontFile spec) := by
  have reads := readsAsCall_video hcolors hgraph
  rw [Graph.videoFilter?, Graph.chain?]
  by_cases hnone : graph.video = []
  · have hcalls : editCalls fontFile spec = [] := by
      rw [hnone, List.map_nil] at reads
      exact List.forall₂_nil_left_iff.mp reads
    simp [hnone, hcalls]
  · have hcalls : editCalls fontFile spec ≠ [] := by
      intro hempty
      rw [hempty] at reads
      exact hnone (List.map_eq_nil_iff.mp (List.forall₂_nil_right_iff.mp reads))
    have chain := readChain?_intercalate reads hcalls
    simpa [hnone, String.toList_intercalate, Function.comp_def] using chain

def trickyText : String := " it's 5:00, [a];\\ "

def trickyEdits : Json.Value :=
  .object [("aspectRatio", .string "9:16"),
    ("textOverlays", .array [.object [("id", .string "a"), ("text", .string trickyText)]])]

def trickySpec : EditSpec :=
  { EditSpec.untouched with
    aspectRatio := .portrait
    textOverlays := [⟨"a", trickyText, none, none, 36, "#FFFFFF", none, none, false⟩] }

end ClipRender.Filter
