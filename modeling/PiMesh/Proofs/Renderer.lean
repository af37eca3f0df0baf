/-
Lines that fit.

Whatever is wrapped fits, and whatever is padded is as wide as the terminal.  What is neither wrapped
nor short enough to pad is the label of a box, the title of a batch without a box and the head of a
verdict, so the lines fit exactly if these do.
-/
import PiMesh.Extension.Renderer

namespace PiMesh

open Js

/-! ### What the result speaks of -/

/-- What the library promises of its measure and of its wrapping. -/
structure Measures (tui : Tui) : Prop where
  wrap : ∀ s w, 1 ≤ w → ∀ line ∈ tui.wrapTextWithAnsi s w, tui.visibleWidth line ≤ w
  /-- Spaces on either side take one column each. -/
  blank : ∀ m s n, tui.visibleWidth (spaces m ++ s ++ spaces n) = m + tui.visibleWidth s + n
  /-- So does each printable character of ASCII. -/
  ascii : ∀ s : String, s.toList.all (fun c => ' ' ≤ c && c ≤ '~') = true →
    tui.visibleWidth s = s.toList.length

/-- A theme adds no columns, and neither do the codes around the lines of a verdict. -/
structure Colorless (tui : Tui) (theme : RenderTheme) : Prop where
  fg : ∀ color s, tui.visibleWidth (theme.fg color s) = tui.visibleWidth s
  bg : ∀ bg, theme.bg = some bg → ∀ s, tui.visibleWidth (bg s) = tui.visibleWidth s
  bold : ∀ bold, theme.bold = some bold → ∀ s, tui.visibleWidth (bold s) = tui.visibleWidth s
  codes : ∀ color bg, ansiBackground color theme = some bg → ∀ s,
    tui.visibleWidth (bg ++ verdictFg bg ++ s ++ "\x1b[39m\x1b[49m") = tui.visibleWidth s

/-- No line is wider than the terminal. -/
def AllFit (tui : Tui) (width : Nat) (lines : List String) : Prop :=
  ∀ line ∈ lines, tui.visibleWidth line ≤ width

/-- The entry has no sender. -/
def anonymous (live : Option LiveEntryData) : Bool := (live.bind fun d => d.sender).isNone

section Claim

variable {ν : Type} [Number ν] (tui : Tui) (width : Nat) (theme : RenderTheme) (content : String)
  (details : Option (MeshInboundDetails ν)) (live : Option LiveEntryData)
  (verdict : Option VerdictEntryData)

/-- All that is rendered fits. -/
structure RenderedFits : Prop where
  message : AllFit tui width (renderMeshInbound tui width theme content details)
  live : AllFit tui width (renderLiveEntry tui width theme live)
  verdict : AllFit tui width (renderVerdictEntry tui width theme verdict)

/-- So do the lines that are not wrapped. -/
structure WideEnough : Prop where
  message : if theme.bg.isSome then 15 ≤ width
    else ∀ title, batchTitle details = some title → tui.visibleWidth title ≤ width
  live : if theme.bg.isSome then (if anonymous live then 15 else 12) ≤ width
    else anonymous live = true → 6 ≤ width
  verdict : tui.visibleWidth (verdictHead theme verdict) ≤ width

end Claim

/-! ### Lines -/

section Lines

variable {tui : Tui} {width : Nat} {theme : RenderTheme} {lines : List String} {line : String}
  {bg : String → String}

theorem allFit_append {a b : List String} :
    AllFit tui width (a ++ b) ↔ AllFit tui width a ∧ AllFit tui width b := List.forall_mem_append

theorem allFit_cons : AllFit tui width (line :: lines) ↔
    tui.visibleWidth line ≤ width ∧ AllFit tui width lines := List.forall_mem_cons

theorem allFit_nil : AllFit tui width [] := by
  intro line h
  simp at h

variable (hm : Measures tui)
include hm

theorem width_spaces (n : Nat) : tui.visibleWidth (spaces n) = n := by
  have hall := hm.ascii (spaces n) (by simp [spaces])
  rw [hall]
  simp [spaces]

theorem width_empty : tui.visibleWidth "" = 0 := width_spaces hm 0

theorem width_padded (line : String) (n : Nat) :
    tui.visibleWidth (line ++ spaces n) = tui.visibleWidth line + n := by
  have hall := hm.blank 0 line n
  have hnone : spaces 0 = "" := rfl
  rw [hnone, String.empty_append, Nat.zero_add] at hall
  exact hall

/-- A padded line is as wide as the terminal, or one column wider than it was. -/
theorem width_padBg (hbg : ∀ s, tui.visibleWidth (bg s) = tui.visibleWidth s) (line : String) :
    tui.visibleWidth (padBg tui width bg line) = max (tui.visibleWidth line + 1) width := by
  have hone : " " = spaces 1 := rfl
  unfold padBg
  rw [hbg, hone, hm.blank]
  omega

theorem fits_wrapped (hwidth : 1 ≤ width) (s : String) :
    AllFit tui width (tui.wrapTextWithAnsi s width) := hm.wrap s width hwidth

/-! ### Boxes -/

variable (hc : Colorless tui theme)
include hc

omit hm in
theorem width_label (label : String) :
    tui.visibleWidth (labelText theme label) = tui.visibleWidth label := by
  unfold labelText
  cases hbold : theme.bold with
  | none => rfl
  | some bold => exact hc.bold bold hbold label

/-- With a background, the lines of a box fit exactly if its label does. -/
theorem renderBox_fits_iff (hbg : theme.bg = some bg) (contentLines : List String) {label : String}
    (hlabel : 1 ≤ tui.visibleWidth label) :
    AllFit tui width (renderBox tui width theme contentLines label) ↔
      tui.visibleWidth label + 1 ≤ width := by
  have hsame := hc.bg bg hbg
  have hempty : tui.visibleWidth (bg (spaces width)) = width := by
    rw [hsame, width_spaces hm]
  unfold renderBox
  simp only [hbg, allFit_append, allFit_cons, hempty, width_padBg hm hsame, hc.fg, width_label hc,
    Nat.le_refl, allFit_nil, true_and, and_true]
  constructor
  · intro h
    exact Nat.le_trans (Nat.le_max_left _ _) h.1
  · intro h
    refine ⟨Nat.max_le.mpr ⟨h, Nat.le_refl _⟩, ?_⟩
    intro line hline
    obtain ⟨raw, -, hraw⟩ := List.mem_flatMap.mp hline
    by_cases hblank : raw = ""
    · rw [if_pos hblank, List.mem_singleton] at hraw
      rw [hraw, hempty]
    · rw [if_neg hblank] at hraw
      obtain ⟨part, hpart, rfl⟩ := List.mem_map.mp hraw
      have hinner := hm.wrap raw (max 1 (width - 2)) (Nat.le_max_left _ _) part hpart
      rw [width_padBg hm hsame]
      omega

omit hm hc in
theorem renderBox_plain (hbg : theme.bg = none) (contentLines : List String) (label : String) :
    renderBox tui width theme contentLines label = contentLines := by
  unfold renderBox
  rw [hbg]

/-! ### Messages -/

omit hc in
theorem fits_pushLine (hwidth : 1 ≤ width) (line : String) :
    AllFit tui width (pushLine tui width theme line) := by
  unfold pushLine
  by_cases hblank : trim line = ""
  · rw [if_pos hblank, allFit_cons, width_empty hm]
    exact ⟨Nat.zero_le _, allFit_nil⟩
  · rw [if_neg hblank]
    exact fits_wrapped hm hwidth _

theorem renderMeshInbound_fits_iff {ν : Type} [Number ν] (hwidth : 1 ≤ width) (content : String)
    (details : Option (MeshInboundDetails ν)) :
    AllFit tui width (renderMeshInbound tui width theme content details) ↔
      if theme.bg.isSome then 15 ≤ width
      else ∀ title, batchTitle details = some title → tui.visibleWidth title ≤ width := by
  have hlabel : tui.visibleWidth "[mesh-inbound]" = 14 := hm.ascii _ (by decide)
  unfold renderMeshInbound
  cases hbg : theme.bg with
  | some bg =>
      rw [renderBox_fits_iff hm hc hbg _ (by omega), hlabel]
      simp
  | none =>
      rw [renderBox_plain hbg, allFit_append]
      have hbody : AllFit tui width (((splitChars '\n' content.toList).map String.ofList).flatMap
          (pushLine tui width theme)) := by
        intro line hline
        obtain ⟨raw, -, hraw⟩ := List.mem_flatMap.mp hline
        exact fits_pushLine hm hwidth raw line hraw
      cases htitle : batchTitle details with
      | none => simp [hbody, allFit_nil]
      | some title => simp [hbody, allFit_cons, allFit_nil, hc.fg]

theorem renderLiveEntry_fits_iff (hwidth : 1 ≤ width) (live : Option LiveEntryData) :
    AllFit tui width (renderLiveEntry tui width theme live) ↔
      if theme.bg.isSome then (if anonymous live then 15 else 12) ≤ width
      else anonymous live = true → 6 ≤ width := by
  have hinbound : tui.visibleWidth "[mesh-inbound]" = 14 := hm.ascii _ (by decide)
  have hlive : tui.visibleWidth "[mesh-live]" = 11 := hm.ascii _ (by decide)
  have hmesh : tui.visibleWidth "[mesh]" = 6 := hm.ascii _ (by decide)
  have hsender : (live.bind fun d => d.sender.map fun sender => (d, sender)).isNone =
      anonymous live := by
    unfold anonymous
    cases live with
    | none => rfl
    | some d => cases hd : d.sender <;> simp [hd]
  unfold renderLiveEntry
  cases hfound : live.bind fun d => d.sender.map fun sender => (d, sender) with
  | none =>
      have hanon : anonymous live = true := by rw [← hsender, hfound]; rfl
      cases hbg : theme.bg with
      | some bg =>
          simp only [renderBox_fits_iff hm hc hbg _ (by omega : 1 ≤ tui.visibleWidth "[mesh-inbound]"),
            hinbound, hanon]
          simp
      | none =>
          simp only [renderBox_plain hbg, allFit_cons, hc.fg, hmesh, allFit_nil, hanon]
          simp
  | some found =>
      obtain ⟨d, sender⟩ := found
      have hanon : anonymous live = false := by rw [← hsender, hfound]; rfl
      cases hbg : theme.bg with
      | some bg =>
          simp only [renderBox_fits_iff hm hc hbg _ (by omega : 1 ≤ tui.visibleWidth "[mesh-live]"),
            hlive, hanon]
          simp
      | none =>
          simp only [renderBox_plain hbg, allFit_append, fits_wrapped hm hwidth, hanon]
          split
          · simp [fits_wrapped hm hwidth]
          · simp [allFit_nil]

/-! ### Verdicts -/

theorem fits_verdictLines (hwidth : 1 ≤ width) (marker recipient text : String) :
    AllFit tui width (verdictLines tui width theme marker recipient text) := by
  have hparts := fits_wrapped hm hwidth (marker ++ " @" ++ recipient ++ ": " ++ text)
  have hmax : max 1 width = width := Nat.max_eq_right hwidth
  unfold verdictLines
  dsimp only
  rw [hmax]
  cases hbg : ansiBackground (agentColor recipient) theme with
  | none =>
      intro line hline
      obtain ⟨part, hpart, rfl⟩ := List.mem_map.mp hline
      rw [hc.fg]
      exact hparts part hpart
  | some bg =>
      intro line hline
      obtain ⟨part, hpart, rfl⟩ := List.mem_map.mp hline
      have hfits := hparts part hpart
      rw [hc.codes _ bg hbg, width_padded hm]
      omega

omit hm hc in
theorem fits_separated {gap : String} (hgap : tui.visibleWidth gap ≤ width)
    (h : AllFit tui width lines) : AllFit tui width (separated gap lines) := by
  cases lines with
  | nil => exact h
  | cons entry rest =>
      obtain ⟨hentry, hrest⟩ := allFit_cons.mp h
      refine allFit_cons.mpr ⟨hentry, ?_⟩
      intro line hline
      obtain ⟨e, he, hmem⟩ := List.mem_flatMap.mp hline
      rcases List.mem_cons.mp hmem with rfl | hmem
      · exact hgap
      · rw [List.mem_singleton.mp hmem]
        exact hrest e he

theorem fits_verdictEntries (hwidth : 1 ≤ width) (verdict : Option VerdictEntryData) :
    AllFit tui width (verdictEntries tui width theme verdict) := by
  unfold verdictEntries
  refine allFit_append.mpr ⟨?_, ?_⟩
  · intro line hline
    obtain ⟨a, -, hmem⟩ := List.mem_flatMap.mp hline
    exact fits_verdictLines hm hc hwidth _ _ _ line hmem
  · intro line hline
    obtain ⟨m, -, hmem⟩ := List.mem_flatMap.mp hline
    exact fits_verdictLines hm hc hwidth _ _ _ line hmem

theorem renderVerdictEntry_fits_iff (hwidth : 1 ≤ width) (verdict : Option VerdictEntryData) :
    AllFit tui width (renderVerdictEntry tui width theme verdict) ↔
      tui.visibleWidth (verdictHead theme verdict) ≤ width := by
  have hentries := fits_verdictEntries hm hc hwidth verdict
  unfold renderVerdictEntry
  cases hbg : theme.bg with
  | some bg =>
      have hsame := hc.bg bg hbg
      have hempty : tui.visibleWidth (bg (spaces width)) = width := by
        rw [hsame, width_spaces hm]
      have hgap := fits_separated (Nat.le_of_eq hempty) hentries
      simp only [allFit_append, allFit_cons, hempty, hgap, hsame, width_padded hm, hc.fg,
        Nat.le_refl, allFit_nil, true_and, and_true]
      omega
  | none =>
      have hzero : tui.visibleWidth "" ≤ width := by
        rw [width_empty hm]
        exact Nat.zero_le _
      have hgap := fits_separated hzero hentries
      simp only [allFit_append, allFit_cons, hzero, hgap, hc.fg, allFit_nil, true_and, and_true]

end Lines

/-- **What is rendered fits the terminal exactly if the lines that are not wrapped do.** -/
theorem rendered_fits_iff {ν : Type} [Number ν] {tui : Tui} (hm : Measures tui) {theme : RenderTheme}
    (hc : Colorless tui theme) {width : Nat} (hwidth : 1 ≤ width) (content : String)
    (details : Option (MeshInboundDetails ν)) (live : Option LiveEntryData)
    (verdict : Option VerdictEntryData) :
    RenderedFits tui width theme content details live verdict ↔
      WideEnough tui width theme details live verdict := by
  have hmessage := renderMeshInbound_fits_iff hm hc hwidth content details
  have hlive := renderLiveEntry_fits_iff hm hc hwidth live
  have hverdict := renderVerdictEntry_fits_iff hm hc hwidth verdict
  constructor
  · intro h
    exact ⟨hmessage.mp h.message, hlive.mp h.live, hverdict.mp h.verdict⟩
  · intro h
    exact ⟨hmessage.mpr h.message, hlive.mpr h.live, hverdict.mpr h.verdict⟩

/-! ### A terminal of plain text -/

/-- Text in pieces of `n` characters. -/
def piecesOf (n : Nat) : Nat → List Char → List (List Char)
  | 0, _ => []
  | _ + 1, [] => []
  | fuel + 1, l => l.take n :: piecesOf n fuel (l.drop n)

theorem length_piecesOf (n : Nat) : ∀ (fuel : Nat) (l : List Char),
    ∀ piece ∈ piecesOf n fuel l, piece.length ≤ n := by
  intro fuel
  induction fuel with
  | zero =>
      intro l piece h
      simp [piecesOf] at h
  | succ fuel ih =>
      intro l piece h
      cases l with
      | nil => simp [piecesOf] at h
      | cons c rest =>
          simp only [piecesOf, List.mem_cons] at h
          rcases h with rfl | h
          · rw [List.length_take]
            omega
          · exact ih _ piece h

/-- Every character takes one column. -/
def plainTui : Tui where
  visibleWidth s := s.toList.length
  wrapTextWithAnsi s w := (piecesOf w s.toList.length s.toList).map String.ofList

theorem plainTui_measures : Measures plainTui where
  wrap := by
    intro s w _ line hline
    obtain ⟨piece, hpiece, rfl⟩ := List.mem_map.mp hline
    have hlength := length_piecesOf w _ _ piece hpiece
    simpa [plainTui] using hlength
  blank := by
    intro m s n
    simp [plainTui, spaces, Nat.add_assoc]
  ascii := by
    intro s _
    rfl

/-- A box without colors. -/
def plainBox : RenderTheme where
  fg _ s := s
  bg := some id

theorem plainBox_colorless : Colorless plainTui plainBox where
  fg _ _ := rfl
  bg := by
    intro bg hbg s
    cases hbg
    rfl
  bold := by
    intro bold hbold
    cases hbold
  codes := by
    intro color bg hbg
    cases hbg

/-- `{ from: "bob", body: "hi" }`. -/
def liveHi : LiveEntryData := { sender := some "bob", body := some "hi" }

theorem rendered_fits_eighty :
    RenderedFits plainTui 80 plainBox "hi" (none : Option (MeshInboundDetails Int)) (some liveHi)
      none :=
  (rendered_fits_iff plainTui_measures plainBox_colorless (by decide) "hi" none (some liveHi)
    none).mpr ⟨by decide, by decide, by decide⟩

/-- On ten columns the label alone takes fifteen. -/
theorem rendered_too_wide : Measures plainTui ∧ Colorless plainTui plainBox ∧
    (renderMeshInbound plainTui 10 plainBox "hi" (none : Option (MeshInboundDetails Int))).map
        plainTui.visibleWidth = [10, 15, 10, 10, 10] ∧
      ¬ RenderedFits plainTui 10 plainBox "hi" (none : Option (MeshInboundDetails Int)) none
        none := by
  have hwidths : (renderMeshInbound plainTui 10 plainBox "hi"
      (none : Option (MeshInboundDetails Int))).map plainTui.visibleWidth = [10, 15, 10, 10, 10] :=
    by decide
  refine ⟨plainTui_measures, plainBox_colorless, hwidths, ?_⟩
  intro h
  have hwide : 15 ∈ (renderMeshInbound plainTui 10 plainBox "hi"
      (none : Option (MeshInboundDetails Int))).map plainTui.visibleWidth := by
    rw [hwidths]
    decide
  obtain ⟨line, hline, hfifteen⟩ := List.mem_map.mp hwide
  have hfits := h.message line hline
  omega

end PiMesh
