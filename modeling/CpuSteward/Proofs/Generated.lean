import CpuSteward.Proofs.SourceConstants
import Mathlib.Data.List.Forall2

/-!
# Reading generated constants back

The generated text can be taken line by line or read as a source.  By lines, each one that begins
with the words of a declaration counts as one, wherever it stands, so a text with line breaks can
add lines that no constant has.

The integers come back in both readings, whatever the configuration holds.  The texts come back
exactly if all of them are plain, and the lines are the fourteen expected ones exactly if no text
adds one.

## Main definitions

* `Constants.openings`, `Constants.strays` — the lines of a text that begin a declaration, and
  those inside a text that stands between quotes.
* `Setting.Contained` — the text of a constant adds no such line.
* `Generated.tree` — the configuration that a file stands for, to any reader of files.

## Main results

* `Document.lines_append`, `Document.lines_prepend`, `Document.lines_break` — the lines of texts
  that are put together.
* `Constants.openings_render` — the lines that begin a declaration, constant by constant.
* `Constants.openings_settings` — each constant has one, and there are others exactly if a text
  adds them.
* `Generated.text_ofReader` — the text depends on what a reader finds in the file, and on nothing
  else of it.
* `Constants.read_back` — **what comes back from the generated text.**
-/

namespace CpuSteward.Config

/-! ### Lines -/

namespace Document

variable {p q t line : List Char} {rest : List (List Char)} {c : Char}

theorem lines_cons (hn : c ≠ '\n') (hr : c = '\r' → t.head? ≠ some '\n')
    (h : lines t = line :: rest) : lines (c :: t) = (c :: line) :: rest := by
  rw [lines.eq_4 c t (fun s hc ht => hr hc (ht ▸ rfl)) hn, h]

theorem lines_ne_nil (t : List Char) : lines t ≠ [] := by
  induction t using lines.induct with
  | case1 => exact List.cons_ne_nil _ _
  | case2 s ih => exact List.cons_ne_nil _ _
  | case3 s ih => exact List.cons_ne_nil _ _
  | case4 c s hr hn hs ih => exact absurd hs ih
  | case5 c s hr hn line rest hs ih =>
    rw [lines_cons hn (fun hc ht => ?_) hs]
    · exact List.cons_ne_nil _ _
    · obtain ⟨more, hmore⟩ := List.head?_eq_some_iff.1 ht
      exact hr more hc hmore

/-- A text is empty, begins with a line break, or has a character in its first line. -/
theorem lines_cases {motive : List Char → Prop} (nil : motive [])
    (both : ∀ s, motive s → motive ('\r' :: '\n' :: s)) (feed : ∀ s, motive s → motive ('\n' :: s))
    (char : ∀ c s line rest, c ≠ '\n' → (c = '\r' → s.head? ≠ some '\n') →
      lines s = line :: rest → motive s → motive (c :: s)) (t : List Char) : motive t := by
  induction t using lines.induct with
  | case1 => exact nil
  | case2 s ih => exact both s ih
  | case3 s ih => exact feed s ih
  | case4 c s hr hn hs ih => exact absurd hs (lines_ne_nil s)
  | case5 c s hr hn line rest hs ih =>
    refine char c s line rest hn (fun hc ht => ?_) hs ih
    obtain ⟨more, hmore⟩ := List.head?_eq_some_iff.1 ht
    exact hr more hc hmore

theorem lines_of_not_mem (h : '\n' ∉ t) : lines t = [t] := by
  induction t with
  | nil => rfl
  | cons c t ih =>
    have ht : '\n' ∉ t := fun hmem => h (List.mem_cons_of_mem _ hmem)
    exact lines_cons (fun hc => h (hc ▸ List.mem_cons_self))
      (fun _ hhead => ht (List.mem_of_head? hhead)) (ih ht)

/-- What stands in front of a text, without a line break, belongs to its first line. -/
theorem lines_prepend (hn : '\n' ∉ p) (hr : '\r' ∉ p) (h : lines t = line :: rest) :
    lines (p ++ t) = (p ++ line) :: rest := by
  induction p with
  | nil => exact h
  | cons c p ih =>
    refine lines_cons (fun hc => hn (hc ▸ List.mem_cons_self))
      (fun hc => absurd (hc ▸ List.mem_cons_self) hr) ?_
    exact ih (fun hmem => hn (List.mem_cons_of_mem _ hmem)) fun hmem =>
      hr (List.mem_cons_of_mem _ hmem)

/-- What stands behind a text, without a line break, belongs to its last line. -/
theorem lines_append (hq : '\n' ∉ q) (t : List Char) : ∃ front last,
    lines t = front ++ [last] ∧ lines (t ++ q) = front ++ [last ++ q] := by
  induction t using lines_cases with
  | nil => exact ⟨[], [], rfl, lines_of_not_mem hq⟩
  | both s ih =>
    obtain ⟨front, last, hs, hsq⟩ := ih
    exact ⟨[] :: front, last, congrArg ([] :: ·) hs, congrArg ([] :: ·) hsq⟩
  | feed s ih =>
    obtain ⟨front, last, hs, hsq⟩ := ih
    exact ⟨[] :: front, last, congrArg ([] :: ·) hs, congrArg ([] :: ·) hsq⟩
  | char c s line rest hn hr hline ih =>
    obtain ⟨front, last, hs, hsq⟩ := ih
    have hrq : c = '\r' → (s ++ q).head? ≠ some '\n' := fun hc hhead => by
      cases s with
      | nil => exact hq (List.mem_of_head? hhead)
      | cons d s => exact hr hc hhead
    cases front with
    | nil => exact ⟨[], c :: last, lines_cons hn hr hs, lines_cons hn hrq hsq⟩
    | cons first front =>
      exact ⟨(c :: first) :: front, last, lines_cons hn hr hs, lines_cons hn hrq hsq⟩

/-- A line break between two texts. -/
theorem lines_break (h : t.getLast? ≠ some '\r') (s : List Char) :
    lines (t ++ '\n' :: s) = lines t ++ lines s := by
  have htail : ∀ c t, (c :: t : List Char).getLast? ≠ some '\r' → t.getLast? ≠ some '\r' :=
    fun c t hlast ht => hlast (by rw [List.getLast?_cons, ht]; rfl)
  induction t using lines_cases with
  | nil => rfl
  | both t ih => exact congrArg ([] :: ·) (ih (htail _ _ (htail _ _ h)))
  | feed t ih => exact congrArg ([] :: ·) (ih (htail _ _ h))
  | char c t line rest hn hr hline ih =>
    have hrs : c = '\r' → (t ++ '\n' :: s).head? ≠ some '\n' := fun hc hhead => by
      cases t with
      | nil => exact h (by rw [hc]; rfl)
      | cons d t => exact hr hc hhead
    have hrest := ih (htail _ _ h)
    rw [hline] at hrest
    rw [List.cons_append, lines_cons hn hrs hrest, lines_cons hn hr hline]
    rfl

end Document

namespace Constants

variable {t line : List Char} {s : Setting} {config : Value} {n : Int}

/-! ### Lines that begin a declaration -/

/-- The lines of a text that begin a declaration. -/
def openings (t : List Char) : List (List Char) :=
  (Document.lines t).filter (Source.keywords.isPrefixOf ·)

/-- The lines inside a text that begin a declaration.  The first line is not one of them, as it is
not at the start of its line when the text is quoted. -/
def strays (t : List Char) : List (List Char) :=
  (Document.lines t).tail.filter (Source.keywords.isPrefixOf ·)

theorem declarations_eq (text : String) :
    declarations text = (openings text.toList).map String.ofList := rfl

theorem openings_feed (t : List Char) : openings ('\n' :: t) = openings t := rfl

theorem openings_break (h : t.getLast? ≠ some '\r') (rest : List Char) :
    openings (t ++ '\n' :: rest) = openings t ++ openings rest := by
  rw [openings, Document.lines_break h, List.filter_append]
  rfl

/-- A quote behind a line does not change how it begins. -/
theorem isPrefixOf_quote (line : List Char) :
    Source.keywords.isPrefixOf (line ++ ['"', ';']) = Source.keywords.isPrefixOf line := by
  rw [Bool.eq_iff_iff, List.isPrefixOf_iff_prefix, List.isPrefixOf_iff_prefix]
  refine ⟨fun h => ?_, List.prefix_append_of_prefix⟩
  rcases Nat.lt_or_ge line.length Source.keywords.length with hlt | hge
  · -- the words would go on into the quote
    have hquote : line ++ ['"'] <+: Source.keywords :=
      List.prefix_of_prefix_length_le ⟨[';'], by simp⟩ h (by simpa using Nat.succ_le_of_lt hlt)
    exact absurd (hquote.subset (by simp : '"' ∈ line ++ ['"'])) (by decide)
  · exact List.prefix_of_prefix_length_le h (List.prefix_append _ _) hge

theorem openings_comment_line (hstart : "//".toList <+: line) (hn : '\n' ∉ line)
    (hr : '\r' ∉ line) (rest : List Char) : openings (line ++ '\n' :: rest) = openings rest := by
  have hlast : line.getLast? ≠ some '\r' := fun hlast => hr (List.mem_of_getLast? hlast)
  obtain ⟨more, rfl⟩ := hstart
  rw [openings_break hlast, openings, Document.lines_of_not_mem hn]
  rfl

theorem openings_comment {lines : List String} (h : (Block.comment lines).tidy = true)
    (config : Value) (rest : List Char) :
    openings (((Block.comment lines).text config).toList ++ '\n' :: rest) = openings rest := by
  obtain ⟨hne, hlines⟩ := Block.tidy_comment_iff.1 h
  refine Block.comment_passes hne (fun line hl rest => ?_) config rest
  obtain ⟨hstart, hn, hr⟩ := hlines line hl
  exact openings_comment_line hstart hn hr rest

/-! ### The lines of a constant -/

theorem not_mem_front (h : s.tidy = true) : '\n' ∉ s.front.toList ∧ '\r' ∉ s.front.toList := by
  have hname := (Setting.tidy_iff.1 h).1 s.name (by simp)
  have htype := (Setting.tidy_iff.1 h).1 s.type (by simp)
  simp [Setting.front, hname, htype]

theorem keywords_prefix_front (s : Setting) : Source.keywords <+: s.front.toList := by
  refine ⟨(s.name ++ ": " ++ s.type ++ " = ").toList, ?_⟩
  simp only [Setting.front, String.toList_append, List.append_assoc]
  rfl

theorem openings_cons {rest : List (List Char)} (hlines : Document.lines t = line :: rest)
    (hfront : s.front.toList <+: line) :
    openings t = line :: rest.filter (Source.keywords.isPrefixOf ·) := by
  have hline : Source.keywords.isPrefixOf line = true :=
    List.isPrefixOf_iff_prefix.2 ((keywords_prefix_front s).trans hfront)
  rw [openings, hlines, List.filter_cons_of_pos hline]

/-- An integer is declared on one line. -/
theorem openings_number (h : s.tidy = true) (hv : s.value config = .number n) :
    openings (s.item config).toList = [(s.item config).toList] := by
  have hitem : (s.item config).toList =
      s.front.toList ++ ((Decimal.ofInt n).toList ++ [';']) := by
    simp [Setting.item, Setting.literal_of_number hv]
  have hn : '\n' ∉ (Decimal.ofInt n).toList ++ [';'] := by
    simp only [List.mem_append, List.mem_singleton, not_or]
    exact ⟨fun hmem => absurd (IntLiteral.mem_of_mem_ofInt _ hmem) (by decide), by decide⟩
  rw [hitem]
  refine openings_cons (Document.lines_of_not_mem ?_) (List.prefix_append _ _)
  rw [List.mem_append, not_or]
  exact ⟨(not_mem_front h).1, hn⟩

/-- A text is declared on a line of its own and on the lines inside it. -/
theorem openings_text {text : String} (h : s.tidy = true) (hv : s.value config = .text text) :
    ∃ line rest, openings (s.item config).toList = line :: rest ∧ s.front.toList <+: line ∧
      rest.length = (strays text.toList).length := by
  have hitem : (s.item config).toList =
      (s.front.toList ++ ['"']) ++ (text.toList ++ ['"', ';']) := by
    simp [Setting.item, Setting.literal_of_text hv]
  have hfront : ∀ line, s.front.toList <+: s.front.toList ++ ['"'] ++ line := fun line =>
    List.prefix_append_of_prefix (List.prefix_append _ _)
  obtain ⟨hn, hr⟩ : '\n' ∉ s.front.toList ++ ['"'] ∧ '\r' ∉ s.front.toList ++ ['"'] := by
    simpa using not_mem_front h
  obtain ⟨front, last, htext, hquoted⟩ :=
    Document.lines_append (q := ['"', ';']) (by decide) text.toList
  rw [hitem, strays, htext]
  cases front with
  | nil =>
    exact ⟨_, _, openings_cons (Document.lines_prepend hn hr hquoted) (hfront _), hfront _, rfl⟩
  | cons first front =>
    refine ⟨_, _, openings_cons (Document.lines_prepend hn hr hquoted) (hfront _), hfront _, ?_⟩
    rw [List.append_eq, List.cons_append, List.tail_cons, List.filter_append, List.filter_append,
      List.length_append, List.length_append, List.filter_singleton, List.filter_singleton,
      isPrefixOf_quote]
    cases Source.keywords.isPrefixOf last <;> rfl

end Constants

namespace Setting

/-- The text of the constant does not add a line that begins a declaration. -/
def Contained (s : Setting) (config : Value) : Prop :=
  ∀ t, s.Means config (.text t) → Constants.strays t.toList = []

end Setting

namespace Constants

variable {s : Setting} {config : Value}

theorem openings_item (h : s.tidy = true) (config : Value) :
    ∃ line rest, openings (s.item config).toList = line :: rest ∧ s.front.toList <+: line ∧
      (rest = [] ↔ s.Contained config) := by
  unfold Setting.Contained
  simp only [Setting.means_iff]
  cases hv : s.value config with
  | number n =>
    refine ⟨_, _, openings_number h hv, ?_, by simp⟩
    simp [Setting.item]
  | text t =>
    obtain ⟨line, rest, hopenings, hfront, hlength⟩ := openings_text h hv
    refine ⟨line, rest, hopenings, hfront, ?_⟩
    rw [← List.length_eq_zero_iff, hlength, List.length_eq_zero_iff]
    simp

/-! ### The lines of the generated text -/

theorem openings_declaration (h : s.tidy = true) (config : Value) (rest : List Char) :
    openings ((s.declaration config).toList ++ '\n' :: rest) =
      openings (s.item config).toList ++ openings rest := by
  have hdoc := (Setting.tidy_iff.1 h).1 s.doc List.mem_cons_self
  have hlast : (s.item config).toList.getLast? ≠ some '\r' := by
    simp [Setting.item]
  rw [Setting.toList_declaration, List.append_assoc, List.cons_append, ← openings_break hlast]
  have hn : '\n' ∉ '/' :: '/' :: ("/ " ++ s.doc).toList := by simpa using hdoc.1
  have hr : '\r' ∉ '/' :: '/' :: ("/ " ++ s.doc).toList := by simpa using hdoc.2
  exact openings_comment_line (List.prefix_append ['/', '/'] _) hn hr _

theorem openings_blocks {bs : List Block} (h : ∀ b ∈ bs, b.tidy = true) (config : Value) :
    openings (bs.flatMap fun b => '\n' :: ((b.text config).toList ++ ['\n'])) =
      (bs.filterMap Block.setting?).flatMap fun s => openings (s.item config).toList := by
  induction bs with
  | nil => rfl
  | cons b bs ih =>
    obtain ⟨hb, hbs⟩ := List.forall_mem_cons.1 h
    rw [List.flatMap_cons, List.cons_append, List.append_assoc, List.singleton_append,
      openings_feed]
    cases b with
    | comment lines =>
      rw [openings_comment hb, List.filterMap_cons_none rfl]
      exact ih hbs
    | constant s =>
      have hsome : (Block.constant s :: bs).filterMap Block.setting? =
          s :: bs.filterMap Block.setting? := rfl
      rw [hsome, List.flatMap_cons, ← ih hbs]
      exact openings_declaration hb config _

/-- The lines that begin a declaration, constant by constant. -/
theorem openings_render (config : Value) :
    openings (render config).toList =
      settings.flatMap fun s => openings (s.item config).toList := by
  rw [← openings_feed, render_eq, openings_blocks tidy_of_mem, filterMap_blocks]

theorem tidy_of_mem_settings (h : s ∈ settings) : s.tidy = true := by
  rw [← filterMap_blocks] at h
  obtain ⟨b, hb, hs⟩ := List.mem_filterMap.1 h
  cases b with
  | comment lines => cases hs
  | constant s' =>
    cases hs
    exact tidy_of_mem _ hb

/-- In every list of constants each one has its own line, in order, and there are no other lines
exactly if no text adds one. -/
theorem openings_settings {l : List Setting} (h : ∀ s ∈ l, s.tidy = true) (config : Value) :
    ∃ lines, lines.Sublist (l.flatMap fun s => openings (s.item config).toList) ∧
      List.Forall₂ (fun s line => s.front.toList <+: line) l lines ∧
      ((l.flatMap fun s => openings (s.item config).toList).length = l.length ↔
        ∀ s ∈ l, s.Contained config) := by
  induction l with
  | nil => exact ⟨[], .slnil, .nil, by simp⟩
  | cons s l ih =>
    obtain ⟨hs, hl⟩ := List.forall_mem_cons.1 h
    obtain ⟨lines, hsub, hfronts, hlength⟩ := ih hl
    obtain ⟨line, rest, hline, hfront, hrest⟩ := openings_item hs config
    refine ⟨line :: lines, ?_, .cons hfront hfronts, ?_⟩
    · rw [List.flatMap_cons, hline, List.cons_append]
      exact (hsub.trans (List.sublist_append_right _ _)).cons_cons _
    · have hle := hsub.length_le
      rw [← hfronts.length_eq] at hle
      rw [List.flatMap_cons, hline, List.forall_mem_cons, ← hlength, ← hrest,
        ← List.length_eq_zero_iff, List.length_append, List.length_cons, List.length_cons]
      omega

/-! ### Reading the generated text back -/

theorem constants_iff {cs : List Source.Constant} {l : List Setting} :
    List.Forall₂ (fun s c => c.name = s.name ∧ c.type = s.type ∧ s.Means config c.value) l cs ↔
      cs = l.map (·.constant config) := by
  have hconstant : ∀ (s : Setting) (c : Source.Constant),
      (c.name = s.name ∧ c.type = s.type ∧ s.Means config c.value) ↔ s.constant config = c := by
    rintro s ⟨name, type, value⟩
    simp [Setting.constant, Setting.means_iff, eq_comm]
  simp only [hconstant]
  rw [← List.forall₂_map_left_iff, List.forall₂_eq_eq_eq, eq_comm]

end Constants

namespace Generated

/-- The configuration that a file stands for: without entries where there is no file, and where
the reader calls it malformed. -/
def tree (read? : String → Option Value) (file : Option String) : Value :=
  (file.bind read?).getD .empty

/-- Of the reader only the configuration matters that it finds in the file. -/
theorem text_ofReader (read? : String → Option Value) (file : Option String) :
    (ofReader read? file).text = Constants.render (tree read? file) := by
  cases file with
  | none => rfl
  | some text =>
    simp only [ofReader, tree, Option.bind_some]
    split <;> simp only [*, Option.getD_none, Option.getD_some]

end Generated

namespace Constants

/-- **What comes back from the generated text.**  Whatever reads the file, the text is that of the
configuration which it finds there.  There are fourteen constants with names and places of their
own, and a configuration says one thing about each.  Each has its line, in order, and there are
no other lines that begin a declaration exactly if no text adds one.  An integer stands on its
line and is read as itself.  A text is read as itself exactly if it is plain, and read as a source
the whole text declares what the configuration says exactly if all texts are. -/
theorem read_back (config : Value) :
    (∀ read? file, (Generated.ofReader read? file).text = render (Generated.tree read? file)) ∧
    (settings.length = 14 ∧ (settings.map Setting.name).Nodup ∧
      (settings.map fun s => (s.table, s.key)).Nodup) ∧
    (∀ s ∈ settings, ∃! v, s.Means config v) ∧
    ((∃ lines, lines.Sublist (declarations (render config)) ∧
        List.Forall₂ (fun s line => s.front.toList <+: line.toList) settings lines) ∧
      ((declarations (render config)).length = 14 ↔ ∀ s ∈ settings, s.Contained config)) ∧
    (∀ s ∈ settings, ∀ n, s.Means config (.number n) →
      s.front ++ s.literal config ++ ";" ∈ declarations (render config) ∧
        Source.integer? (s.literal config).toList = some n) ∧
    (∀ s ∈ settings, ∀ t, s.Means config (.text t) →
      (Source.text? (s.literal config).toList = some t.toList ↔ Source.Plain t.toList)) ∧
    ((∃ constants, Source.constants? (render config) = some constants ∧
        List.Forall₂ (fun s c => c.name = s.name ∧ c.type = s.type ∧ s.Means config c.value)
          settings constants) ↔ ∀ s ∈ settings, s.Writable config) := by
  have hcount : settings.length = 14 := rfl
  have hdeclarations : declarations (render config) =
      (settings.flatMap fun s => openings (s.item config).toList).map String.ofList := by
    rw [declarations_eq, openings_render]
  obtain ⟨lines, hsub, hfronts, hlength⟩ :=
    openings_settings (fun _ hs => tidy_of_mem_settings hs) config
  refine ⟨Generated.text_ofReader, ⟨hcount, by decide, by decide⟩,
    fun s _ => ⟨s.value config, Setting.means_value s config, fun v hv => Setting.means_iff.1 hv⟩,
    ⟨⟨lines.map String.ofList, ?_, ?_⟩, ?_⟩, fun s hs n hn => ⟨?_, ?_⟩, fun s hs t ht => ?_, ?_⟩
  · rw [hdeclarations]
    exact hsub.map _
  · simpa [List.forall₂_map_right_iff] using hfronts
  · rw [hdeclarations, List.length_map, ← hcount]
    exact hlength
  · have hline := openings_number (tidy_of_mem_settings hs) (Setting.means_iff.1 hn).symm
    rw [hdeclarations, List.mem_map]
    refine ⟨(s.item config).toList, List.mem_flatMap.2 ⟨s, hs, ?_⟩, String.ofList_toList⟩
    rw [hline]
    exact List.mem_singleton_self _
  · rw [Setting.literal_of_number (Setting.means_iff.1 hn).symm]
    exact Source.integer?_ofInt n
  · rw [Setting.literal_of_text (Setting.means_iff.1 ht).symm]
    exact Source.text?_quoted_iff
  · simp only [constants_iff, exists_eq_right]
    exact constants?_render_iff config

/-- A text on two lines, an integer where a text is asked for, a truth value in place of a table,
and a negative integer. -/
theorem read_back_two_lines :
    let config : Value := .table .declared [
      ("general", .table .declared [("name", .string "two\nlines"), ("version", .integer 3)]),
      ("procfs", .boolean true), ("smp", .table .inline [("max_cpus", .integer (-4))])]
    (declarations (render config)).length = 14 ∧
      "pub const MAX_CPUS: usize = -4;" ∈ declarations (render config) ∧
      ∃ constants, Source.constants? (render config) = some constants ∧
        constants.map Source.Constant.value =
          [.text "two\nlines", .text "0.1.0", .text "hmbird_sched", .number 16, .number (-4),
            .number 10, .number 8, .number 8, .number 50, .number 95, .number 5, .number 2,
            .number 3, .number 16] := by
  intro config
  obtain ⟨-, -, -, ⟨-, hlength⟩, hnumber, -, hsource⟩ := read_back config
  have hvalues : settings.map (·.value config) =
      [.text "two\nlines", .text "0.1.0", .text "hmbird_sched", .number 16, .number (-4),
        .number 10, .number 8, .number 8, .number 50, .number 95, .number 5, .number 2,
        .number 3, .number 16] := by
    decide +kernel
  have hgood : ∀ s ∈ settings, ∀ t, s.Means config (.text t) →
      Source.Plain t.toList ∧ strays t.toList = [] := by
    intro s hs t ht
    have hmem : s.value config ∈ settings.map (·.value config) := List.mem_map_of_mem hs
    rw [hvalues, ← Setting.means_iff.1 ht] at hmem
    obtain rfl | rfl | rfl : t = "two\nlines" ∨ t = "0.1.0" ∨ t = "hmbird_sched" := by
      simpa using hmem
    all_goals decide
  refine ⟨hlength.2 fun s hs t ht => (hgood s hs t ht).2, ?_, ?_⟩
  · have hline : settings[4].front ++ settings[4].literal config ++ ";" =
        "pub const MAX_CPUS: usize = -4;" := by
      decide +kernel
    exact hline ▸ (hnumber settings[4] (List.getElem_mem _) (-4) (.integer rfl rfl)).1
  · obtain ⟨constants, hread, hconstants⟩ := hsource.2 fun s hs t ht => (hgood s hs t ht).1
    refine ⟨constants, hread, ?_⟩
    rw [constants_iff.1 hconstants, List.map_map]
    exact hvalues

/-- A quote inside a text ends it too early, and a line break inside one can put a declaration on
a line of its own. -/
theorem quote_taken :
    let quoted : Value :=
      .table .declared [("general", .table .declared [("name", .string "a\"b")])]
    let broken : Value :=
      .table .declared [("general", .table .declared [("name", .string "a\npub const b")])]
    (∃ s ∈ settings, s.name = "SCHEDCTL_NAME" ∧ s.Means quoted (.text "a\"b") ∧
        s.literal quoted = "\"a\"b\"" ∧ Source.text? (s.literal quoted).toList = none) ∧
      (∀ constants, Source.constants? (render quoted) = some constants →
        constants ≠ settings.map (·.constant quoted)) ∧
      (declarations (render broken)).length ≠ 14 := by
  intro quoted broken
  have hname : settings[0] ∈ settings := List.getElem_mem _
  have hquoted : settings[0].Means quoted (.text "a\"b") := .string rfl rfl
  have hbroken : settings[0].Means broken (.text "a\npub const b") := .string rfl rfl
  refine ⟨⟨settings[0], hname, rfl, hquoted, rfl, by decide +kernel⟩, ?_, ?_⟩
  · rintro constants hread rfl
    exact absurd ((constants?_render_iff quoted).1 hread _ hname _ hquoted) (by decide)
  · rw [declarations_eq, List.length_map, openings_render]
    obtain ⟨-, -, -, hlength⟩ := openings_settings (fun _ hs => tidy_of_mem_settings hs) broken
    exact fun h => absurd (hlength.1 h _ hname _ hbroken) (by decide)

end Constants
end CpuSteward.Config
