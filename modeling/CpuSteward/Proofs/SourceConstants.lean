import CpuSteward.Config.Constants
import CpuSteward.Proofs.Backup
import CpuSteward.Proofs.QuotedText
import Mathlib.Algebra.BigOperators.Group.List.Basic

/-!
# Constants of a source

As a source the generated text consists of comments, empty lines and constants, and the text of
a constant goes on over line breaks up to its closing quote.  Reading it gives the constants
that the configuration asks for exactly if all of its texts are plain; integers are always read
as they are.

## Main definitions

* `Source.Literal`, `Source.Constant`, `Source.constants?` — the constants that a source
  declares.
* `Setting.Means`, `Setting.Writable` — what a configuration says about a constant, and whether
  it can be written without escapes.
* `Constants.settings`, `Constants.blocks` — the constants in order, and the generated text
  block by block.

## Main results

* `Setting.means_iff` — a configuration says one thing about a constant.
* `Constants.render_eq` — the generated text, block by block.
* `Constants.constants?_render_iff` — **when the source declares what the configuration says.**
-/

namespace CpuSteward.Config

/-! ### Constants in a source -/

namespace Source

/-- The value of a constant. -/
inductive Literal where
  /-- A text. -/
  | text (s : String)
  /-- An integer. -/
  | number (n : Int)
  deriving DecidableEq, Repr

/-- A constant of a source. -/
structure Constant where
  /-- Its name. -/
  name : String
  /-- Its type. -/
  type : String
  /-- Its value. -/
  value : Literal
  deriving DecidableEq, Repr

/-- Skip empty lines and comments, from the start of a line or from inside a comment. -/
def skip : Bool → List Char → List Char
  | _, [] => []
  | true, c :: s => skip (c ≠ '\n') s
  | false, '\n' :: s => skip false s
  | false, '/' :: '/' :: s => skip true s
  | false, s => s

/-- A decimal integer. -/
def integer? : List Char → Option Int
  | '-' :: s => (IntLiteral.magnitude? 10 s).map fun n : Nat => -(n : Int)
  | s => (IntLiteral.magnitude? 10 s).map fun n : Nat => (n : Int)

/-- A value, and what follows it. -/
def literal? : List Char → Option (Literal × List Char)
  | '"' :: s => (scan .plain s).map fun (text, rest) => (.text (.ofList text), rest)
  | s => (integer? (s.takeWhile (· ≠ ';'))).map fun n => (.number n, s.dropWhile (· ≠ ';'))

/-- The words in front of every constant. -/
def keywords : List Char := "pub const ".toList

/-- A word up to a character, and what follows that character and some more. -/
def word? (stop : Char) (more s : List Char) : Option (List Char × List Char) :=
  ((s.dropWhile (· ≠ stop)).dropPrefix? (stop :: more)).map fun rest =>
    (s.takeWhile (· ≠ stop), rest)

/-- A constant that ends its line with its value, and what follows the line break. -/
def close? (name type : List Char) (value : Literal) (s : List Char) :
    Option (Constant × List Char) :=
  (s.dropPrefix? [';', '\n']).map fun rest => (⟨.ofList name, .ofList type, value⟩, rest)

/-- A constant with the line break behind it, and what follows. -/
def constant? (s : List Char) : Option (Constant × List Char) := do
  let s ← s.dropPrefix? keywords
  let (name, s) ← word? ':' [' '] s
  let (type, s) ← word? ' ' ['=', ' '] s
  let (value, s) ← literal? s
  close? name type value s

/-- All constants, if there are not more than a number of them and nothing else but comments. -/
def constantsWithin : Nat → List Char → Option (List Constant)
  | 0, s => if skip false s = [] then some [] else none
  | n + 1, s =>
    if skip false s = [] then some []
    else (constant? (skip false s)).bind fun (c, s) => (constantsWithin n s).map (c :: ·)

/-- The constants that a source declares.  They are fewer than its characters. -/
def constants? (source : String) : Option (List Constant) :=
  constantsWithin source.toList.length source.toList

variable {s line rest t : List Char} {n : Nat} {z : Int} {cs : List Constant}

theorem constantsWithin_skip (n : Nat) {s s' : List Char} (h : skip false s = skip false s') :
    constantsWithin n s = constantsWithin n s' := by
  cases n with
  | zero => rw [constantsWithin, constantsWithin, h]
  | succ n => rw [constantsWithin, constantsWithin, h]

theorem skip_true_append (h : '\n' ∉ line) :
    skip true (line ++ '\n' :: rest) = skip false rest := by
  induction line with
  | nil => rfl
  | cons c line ih =>
    have hc : c ≠ '\n' := fun he => h (he ▸ List.mem_cons_self)
    rw [List.cons_append, skip, decide_eq_true hc]
    exact ih fun hmem => h (List.mem_cons_of_mem _ hmem)

/-- A comment is skipped with its line break. -/
theorem skip_comment (h : '\n' ∉ line) :
    skip false ('/' :: '/' :: line ++ '\n' :: rest) = skip false rest := skip_true_append h

theorem integer?_of_head (h : s.head? ≠ some '-') :
    integer? s = (IntLiteral.magnitude? 10 s).map fun n : Nat => (n : Int) := by
  unfold integer?
  split
  · exact absurd rfl h
  · rfl

theorem magnitude?_toDigits (n : Nat) : IntLiteral.magnitude? 10 (Nat.toDigits 10 n) = some n := by
  rw [IntLiteral.magnitude?_eq_some_iff (by decide)]
  refine ⟨Nat.toDigits_ne_nil, IntLiteral.mem_alphabet_of_mem_toDigits n, ?_⟩
  rcases Nat.eq_zero_or_pos n with rfl | hn
  · rfl
  · obtain ⟨c, s, hs, -, -, hval⟩ := IntLiteral.toDigits_spec hn
    rw [hs, hval]

theorem integer?_ofInt (z : Int) : integer? (Decimal.ofInt z).toList = some z := by
  rw [Decimal.toList_ofInt]
  split
  · rename_i hz
    have hhead : (Nat.toDigits 10 z.natAbs).head? ≠ some '-' := fun h =>
      absurd (IntLiteral.mem_alphabet_of_mem_toDigits _ _ (List.mem_of_head? h)) (by decide)
    rw [List.nil_append, integer?_of_head hhead, magnitude?_toDigits, Option.map_some]
    congr 1
    omega
  · rename_i hz
    rw [List.singleton_append, integer?, magnitude?_toDigits, Option.map_some]
    congr 1
    omega

theorem literal?_number (z : Int) (rest : List Char) :
    literal? ((Decimal.ofInt z).toList ++ ';' :: rest) = some (.number z, ';' :: rest) := by
  have hchar : ∀ c ∈ (Decimal.ofInt z).toList, decide (c ≠ ';') = true := fun c hc =>
    decide_eq_true fun he =>
      absurd (he ▸ IntLiteral.mem_of_mem_ofInt c hc : ';' ∈ '-' :: IntLiteral.alphabet 10)
        (by decide)
  have hquote : ∀ s, (Decimal.ofInt z).toList ++ ';' :: rest ≠ '"' :: s := by
    intro s he
    cases hl : (Decimal.ofInt z).toList with
    | nil =>
      rw [hl] at he
      cases he
    | cons c l =>
      rw [hl, List.cons_append, List.cons.injEq] at he
      have hmem := IntLiteral.mem_of_mem_ofInt c (hl ▸ List.mem_cons_self)
      exact absurd (he.1 ▸ hmem) (by decide)
  unfold literal?
  split
  · rename_i s hs
    exact absurd hs (hquote s)
  · rw [List.takeWhile_append_of_pos hchar, List.dropWhile_append_of_pos hchar]
    simp [integer?_ofInt]

theorem literal?_text (t rest : List Char) :
    literal? ('"' :: (t ++ '"' :: rest)) =
      (scan .plain (t ++ '"' :: rest)).map fun (text, rest) => (.text (.ofList text), rest) := rfl

theorem dropPrefix?_append (front s : List Char) : (front ++ s).dropPrefix? front = some s :=
  List.dropPrefix?_append_of_beq s (beq_self_eq_true front)

theorem word?_append {stop : Char} {word : List Char} (h : stop ∉ word) (more s : List Char) :
    word? stop more (word ++ (stop :: more ++ s)) = some (word, s) := by
  have hword : ∀ c ∈ word, decide (c ≠ stop) = true := fun c hc =>
    decide_eq_true fun he => h (he ▸ hc)
  have htake : (stop :: (more ++ s)).takeWhile (· ≠ stop) = [] := by simp
  have hdrop : (stop :: (more ++ s)).dropWhile (· ≠ stop) = stop :: more ++ s := by simp
  rw [word?, List.takeWhile_append_of_pos hword, List.dropWhile_append_of_pos hword,
    List.cons_append, htake, hdrop, dropPrefix?_append, List.append_nil]
  rfl

theorem close?_append (name type : List Char) (value : Literal) (rest : List Char) :
    close? name type value (';' :: '\n' :: rest) =
      some (⟨.ofList name, .ofList type, value⟩, rest) := by
  have hdrop : (';' :: '\n' :: rest).dropPrefix? [';', '\n'] = some rest :=
    dropPrefix?_append [';', '\n'] rest
  rw [close?, hdrop, Option.map_some]

/-- The front of a constant is read up to its value. -/
theorem constant?_front {name type : List Char} (hname : ':' ∉ name) (htype : ' ' ∉ type)
    (s : List Char) :
    constant? (keywords ++ (name ++ ([':', ' '] ++ (type ++ ([' ', '=', ' '] ++ s))))) =
      (literal? s).bind fun (value, s) => close? name type value s := by
  unfold constant?
  simp only [Option.bind_eq_bind, dropPrefix?_append, Option.bind_some, word?_append hname,
    word?_append htype]

end Source

/-! ### What a configuration says -/

namespace Setting

/-- The value at the place of a constant. -/
def place? (s : Setting) (config : Value) : Option Value :=
  (config.get? s.table).bind (·.get? s.key)

/-- What a configuration says about a constant: the value at its place if it has the type of the
default, and the default if not. -/
inductive Means (s : Setting) (config : Value) : Source.Literal → Prop where
  /-- An integer at the place of an integer. -/
  | integer {d n : Int} (hd : s.default = .number d) (h : s.place? config = some (.integer n)) :
    Means s config (.number n)
  /-- Something else, or nothing, at the place of an integer. -/
  | noInteger {d : Int} (hd : s.default = .number d)
      (h : ∀ n, s.place? config ≠ some (.integer n)) : Means s config (.number d)
  /-- A text at the place of a text. -/
  | string {d t : String} (hd : s.default = .text d) (h : s.place? config = some (.string t)) :
    Means s config (.text t)
  /-- Something else, or nothing, at the place of a text. -/
  | noString {d : String} (hd : s.default = .text d)
      (h : ∀ t, s.place? config ≠ some (.string t)) : Means s config (.text d)

/-- The same as a function. -/
def value (s : Setting) (config : Value) : Source.Literal :=
  match s.default with
  | .text d => .text (((s.place? config).bind Value.string?).getD d)
  | .number d => .number (((s.place? config).bind Value.integer?).getD d)

variable {s : Setting} {config : Value} {v : Source.Literal}

theorem bind_string?_eq_some_iff {p : Option Value} {t : String} :
    p.bind Value.string? = some t ↔ p = some (.string t) := by
  match p with
  | none => simp
  | some (.string t') => simp [Value.string?]
  | some (.integer _) | some (.float _) | some (.boolean _) | some (.moment _) | some (.array _)
  | some (.table _ _) => simp [Value.string?]

theorem bind_integer?_eq_some_iff {p : Option Value} {n : Int} :
    p.bind Value.integer? = some n ↔ p = some (.integer n) := by
  match p with
  | none => simp
  | some (.integer n') => simp [Value.integer?]
  | some (.string _) | some (.float _) | some (.boolean _) | some (.moment _) | some (.array _)
  | some (.table _ _) => simp [Value.integer?]

theorem means_value (s : Setting) (config : Value) : s.Means config (s.value config) := by
  unfold value
  split
  · rename_i d hd
    cases hp : (s.place? config).bind Value.string? with
    | none =>
      refine .noString hd fun t ht => ?_
      cases hp.symm.trans (bind_string?_eq_some_iff.2 ht)
    | some t => exact .string hd (bind_string?_eq_some_iff.1 hp)
  · rename_i d hd
    cases hp : (s.place? config).bind Value.integer? with
    | none =>
      refine .noInteger hd fun n hn => ?_
      cases hp.symm.trans (bind_integer?_eq_some_iff.2 hn)
    | some n => exact .integer hd (bind_integer?_eq_some_iff.1 hp)

/-- A configuration says one thing about a constant. -/
theorem means_iff : s.Means config v ↔ v = s.value config := by
  constructor
  · intro h
    unfold value
    cases h with
    | integer hd h =>
      rw [hd, bind_integer?_eq_some_iff.2 h]
      rfl
    | noInteger hd h =>
      have hnone : (s.place? config).bind Value.integer? = none :=
        Option.eq_none_iff_forall_ne_some.2 fun n hn => h n (bind_integer?_eq_some_iff.1 hn)
      rw [hd, hnone]
      rfl
    | string hd h =>
      rw [hd, bind_string?_eq_some_iff.2 h]
      rfl
    | noString hd h =>
      have hnone : (s.place? config).bind Value.string? = none :=
        Option.eq_none_iff_forall_ne_some.2 fun t ht => h t (bind_string?_eq_some_iff.1 ht)
      rw [hd, hnone]
      rfl
  · rintro rfl
    exact means_value s config

theorem literal_of_text {t : String} (h : s.value config = .text t) :
    (s.literal config).toList = '"' :: (t.toList ++ ['"']) := by
  cases hd : s.default with
  | text d =>
    have ht : ((s.place? config).bind Value.string?).getD d = t := by simpa [value, hd] using h
    simp [literal, hd, ← ht, place?]
  | number d => simp [value, hd] at h

theorem literal_of_number {n : Int} (h : s.value config = .number n) :
    s.literal config = Decimal.ofInt n := by
  cases hd : s.default with
  | text d => simp [value, hd] at h
  | number d =>
    have hn : ((s.place? config).bind Value.integer?).getD d = n := by simpa [value, hd] using h
    simp [literal, hd, ← hn, place?]

/-- The constant that the configuration leads to. -/
def constant (s : Setting) (config : Value) : Source.Constant :=
  ⟨s.name, s.type, s.value config⟩

/-- The front of the line that declares a constant. -/
def front (s : Setting) : String := "pub const " ++ s.name ++ ": " ++ s.type ++ " = "

/-- The declaration without the comment above it. -/
def item (s : Setting) (config : Value) : String := s.front ++ s.literal config ++ ";"

theorem head?_item (s : Setting) (config : Value) :
    (s.item config).toList.head? = some 'p' := by
  simp [item, front]

/-- What a constant has to be like to be declared on a line: no line breaks, and no character in
its name or type that ends them. -/
def tidy (s : Setting) : Bool :=
  [s.doc, s.name, s.type].all (fun t => !t.toList.contains '\n' && !t.toList.contains '\r') &&
    !s.name.toList.contains ':' && !s.type.toList.contains ' '

theorem tidy_iff : s.tidy = true ↔
    (∀ t ∈ [s.doc, s.name, s.type], '\n' ∉ t.toList ∧ '\r' ∉ t.toList) ∧
      ':' ∉ s.name.toList ∧ ' ' ∉ s.type.toList := by
  simp [tidy, and_assoc]

/-- The text of the constant can stand between quotes just as it is. -/
def Writable (s : Setting) (config : Value) : Prop :=
  ∀ t, s.Means config (.text t) → Source.Plain t.toList

theorem toList_declaration (s : Setting) (config : Value) :
    (s.declaration config).toList =
      '/' :: '/' :: ("/ " ++ s.doc).toList ++ '\n' :: (s.item config).toList := by
  simp [declaration, item, front]

end Setting

namespace Constants

/-- All constants in order. -/
def settings : List Setting := chapters.flatMap Chapter.settings

/-- A part of the generated text. -/
inductive Block where
  /-- Lines of comment. -/
  | comment (lines : List String)
  /-- A constant. -/
  | constant (s : Setting)

namespace Block

/-- The text of a block. -/
def text (config : Value) : Block → String
  | comment lines => "\n".intercalate lines
  | constant s => s.declaration config

/-- The constant that a block declares. -/
def setting? : Block → Option Setting
  | comment _ => none
  | constant s => some s

/-- A comment is one line or more of comment, and a constant is tidy. -/
def tidy : Block → Bool
  | comment lines => !lines.isEmpty && lines.all fun line =>
      "//".toList.isPrefixOf line.toList && !line.toList.contains '\n' &&
        !line.toList.contains '\r'
  | constant s => s.tidy

theorem tidy_comment_iff {lines : List String} : (comment lines).tidy = true ↔
    lines ≠ [] ∧ ∀ line ∈ lines,
      "//".toList <+: line.toList ∧ '\n' ∉ line.toList ∧ '\r' ∉ line.toList := by
  simp [tidy, and_assoc]

/-- What passes over every line of a comment, with the line break behind it, passes over the
comment. -/
theorem comment_passes {α : Type} {f : List Char → α} {lines : List String} (hne : lines ≠ [])
    (h : ∀ line ∈ lines, ∀ rest, f (line.toList ++ '\n' :: rest) = f rest) (config : Value)
    (rest : List Char) : f (((comment lines).text config).toList ++ '\n' :: rest) = f rest := by
  rw [text, String.toList_intercalate]
  induction lines with
  | nil => exact absurd rfl hne
  | cons line lines ih =>
    cases lines with
    | nil => simpa using h line List.mem_cons_self rest
    | cons line' lines =>
      have hrest := ih (List.cons_ne_nil _ _) fun l hl => h l (List.mem_cons_of_mem _ hl)
      rw [List.map_cons, List.map_cons, List.intercalate_cons_cons, List.append_assoc,
        List.append_assoc]
      exact (h line List.mem_cons_self _).trans hrest

end Block

/-- The parts of the generated text. -/
def blocks : List Block :=
  .comment ["//! schedctl 配置（自动生成）", "//!",
    "//! 此文件由 build.rs 根据 Sched.toml 自动生成，请勿手动修改"] ::
    chapters.flatMap fun c => .comment [rule, "// " ++ c.title, rule] :: c.settings.map .constant

theorem tidy_of_mem : ∀ b ∈ blocks, b.tidy = true := by decide +kernel

theorem filterMap_blocks : blocks.filterMap Block.setting? = settings := rfl

/-- Parts with two line breaks between them have a line break in front of each and behind. -/
theorem intercalate_breaks {l : List (List Char)} (h : l ≠ []) :
    '\n' :: (['\n', '\n'].intercalate l ++ ['\n']) = l.flatMap fun b => '\n' :: (b ++ ['\n']) := by
  induction l with
  | nil => exact absurd rfl h
  | cons b l ih =>
    cases l with
    | nil => simp
    | cons b' l =>
      rw [List.flatMap_cons, ← ih (List.cons_ne_nil _ _), List.intercalate_cons_cons]
      simp

theorem map_toList_blocks (config : Value) :
    (preamble :: chapters.flatMap (paragraphs config)).map String.toList =
      blocks.map fun b => (b.text config).toList := by
  have hpreamble : preamble = "\n".intercalate ["//! schedctl 配置（自动生成）", "//!",
      "//! 此文件由 build.rs 根据 Sched.toml 自动生成，请勿手动修改"] := by decide +kernel
  have hchapter : ∀ c : Chapter, (paragraphs config c).map String.toList =
      (.comment [rule, "// " ++ c.title, rule] :: c.settings.map Block.constant).map
        fun b => (b.text config).toList := by
    intro c
    simp [paragraphs, Block.text]
  rw [blocks, List.map_cons, List.map_cons, hpreamble, List.map_flatMap, List.map_flatMap]
  simp only [hchapter]
  rfl

/-- The generated text, block by block. -/
theorem render_eq (config : Value) :
    '\n' :: (render config).toList =
      blocks.flatMap fun b => '\n' :: ((b.text config).toList ++ ['\n']) := by
  have hne : (blocks.map fun b => (b.text config).toList) ≠ [] := List.cons_ne_nil _ _
  rw [render, String.toList_append, String.toList_intercalate, map_toList_blocks]
  exact (intercalate_breaks hne).trans (List.flatMap_map _ _ _)

/-! ### The constants of the source -/

variable {s : Setting} {config : Value} {rest tail : List Char} {cs : List Source.Constant}

/-- Lines of comment are skipped with the line break behind them. -/
theorem skip_comment_block {lines : List String} (h : (Block.comment lines).tidy = true)
    (config : Value) (rest : List Char) :
    Source.skip false (((Block.comment lines).text config).toList ++ '\n' :: rest) =
      Source.skip false rest := by
  obtain ⟨hne, hlines⟩ := Block.tidy_comment_iff.1 h
  refine Block.comment_passes hne (fun line hl rest => ?_) config rest
  obtain ⟨⟨more, hmore⟩, hn, -⟩ := hlines line hl
  rw [← hmore] at hn ⊢
  exact Source.skip_comment fun hmem => hn (List.mem_append_right _ hmem)

theorem constant?_item (h : s.tidy = true) (config : Value) (rest : List Char) :
    Source.constant? ((s.item config).toList ++ '\n' :: rest) =
      (Source.literal? ((s.literal config).toList ++ ';' :: '\n' :: rest)).bind fun (value, tail) =>
        Source.close? s.name.toList s.type.toList value tail := by
  obtain ⟨-, hname, htype⟩ := Setting.tidy_iff.1 h
  have hitem : (s.item config).toList ++ '\n' :: rest =
      Source.keywords ++ (s.name.toList ++ ([':', ' '] ++ (s.type.toList ++ ([' ', '=', ' '] ++
        ((s.literal config).toList ++ ';' :: '\n' :: rest))))) := by
    simp only [Setting.item, Setting.front, String.toList_append, List.append_assoc]
    rfl
  rw [hitem, Source.constant?_front hname htype]

/-- A constant is read from its line exactly if it is writable. -/
theorem constant?_eq_some_iff (h : s.tidy = true) :
    Source.constant? ((s.item config).toList ++ '\n' :: rest) = some (s.constant config, tail) ↔
      s.Writable config ∧ tail = rest := by
  rw [constant?_item h]
  unfold Setting.Writable Setting.constant
  simp only [Setting.means_iff]
  cases hv : s.value config with
  | number n =>
    rw [Setting.literal_of_number hv, Source.literal?_number, Option.bind_some]
    simp [Source.close?_append, eq_comm]
  | text t =>
    have hliteral : (s.literal config).toList ++ ';' :: '\n' :: rest =
        '"' :: (t.toList ++ '"' :: ';' :: '\n' :: rest) := by
      simp [Setting.literal_of_text hv]
    rw [hliteral, Source.literal?_text]
    simp only [Source.Literal.text.injEq, forall_eq]
    constructor
    · intro hread
      obtain ⟨⟨value, behind⟩, hmap, hclose⟩ := Option.bind_eq_some_iff.1 hread
      obtain ⟨⟨text, behind⟩, hscan, he⟩ := Option.map_eq_some_iff.1 hmap
      cases he
      obtain ⟨tail, hdrop, hconstant⟩ := Option.map_eq_some_iff.1 hclose
      obtain ⟨rfl, rfl⟩ : String.ofList text = t ∧ tail = _ := by simpa using hconstant
      rw [String.toList_ofList] at hscan ⊢
      obtain ⟨hplain, rfl⟩ := Source.scan_eq_some_iff.1 hscan
      have hrest := Source.dropPrefix?_append [';', '\n'] rest
      exact ⟨hplain, Option.some_inj.1 (hdrop.symm.trans hrest)⟩
    · rintro ⟨hplain, rfl⟩
      rw [Source.scan_of_plain hplain, Option.map_some, Option.bind_some]
      simp [Source.close?_append]

theorem constantsWithin_declaration (h : s.tidy = true) (n : Nat) :
    Source.constantsWithin (n + 1) ((s.declaration config).toList ++ '\n' :: rest) =
        some (s.constant config :: cs) ↔
      s.Writable config ∧ Source.constantsWithin n rest = some cs := by
  have hdoc : '\n' ∉ ("/ " ++ s.doc).toList := by
    simpa using ((Setting.tidy_iff.1 h).1 s.doc List.mem_cons_self).1
  have hskip : Source.skip false ((s.declaration config).toList ++ '\n' :: rest) =
      (s.item config).toList ++ '\n' :: rest := by
    rw [Setting.toList_declaration, List.cons_append, List.cons_append, List.append_assoc]
    obtain ⟨more, hmore⟩ := List.head?_eq_some_iff.1 (Setting.head?_item s config)
    rw [hmore]
    exact (Source.skip_comment hdoc).trans
      (Source.skip.eq_5 _ (by simp) (by simp) (by simp))
  have hne : (s.item config).toList ++ '\n' :: rest ≠ [] := by simp
  rw [Source.constantsWithin, hskip, if_neg hne, Option.bind_eq_some_iff]
  constructor
  · rintro ⟨⟨c, tail⟩, hc, hrest⟩
    obtain ⟨cs', hcs, he⟩ := Option.map_eq_some_iff.1 hrest
    obtain ⟨rfl, rfl⟩ := List.cons.inj he
    obtain ⟨hwritable, rfl⟩ := (constant?_eq_some_iff h).1 hc
    exact ⟨hwritable, hcs⟩
  · rintro ⟨hwritable, hcs⟩
    exact ⟨_, (constant?_eq_some_iff h).2 ⟨hwritable, rfl⟩, by simp [hcs]⟩

theorem constantsWithin_blocks_iff {bs : List Block} (h : ∀ b ∈ bs, b.tidy = true)
    (config : Value) (n : Nat) :
    Source.constantsWithin (n + (bs.filterMap Block.setting?).length)
        (bs.flatMap fun b => '\n' :: ((b.text config).toList ++ ['\n'])) =
        some ((bs.filterMap Block.setting?).map (·.constant config)) ↔
      ∀ s ∈ bs.filterMap Block.setting?, s.Writable config := by
  induction bs with
  | nil => cases n <;> simp [Source.constantsWithin, Source.skip]
  | cons b bs ih =>
    obtain ⟨hb, hbs⟩ := List.forall_mem_cons.1 h
    rw [List.flatMap_cons, List.cons_append, List.append_assoc, List.singleton_append,
      Source.constantsWithin_skip _ (Source.skip.eq_3 _)]
    cases b with
    | comment lines =>
      rw [Source.constantsWithin_skip _ (skip_comment_block hb config _),
        List.filterMap_cons_none rfl]
      exact ih hbs
    | constant s =>
      have hsome : (Block.constant s :: bs).filterMap Block.setting? =
          s :: bs.filterMap Block.setting? := rfl
      rw [hsome, List.length_cons, List.map_cons, List.forall_mem_cons,
        ← ih hbs, ← Nat.add_assoc]
      exact constantsWithin_declaration hb _

/-- **When the source declares what the configuration says**: exactly if its texts are plain. -/
theorem constants?_render_iff (config : Value) :
    Source.constants? (render config) = some (settings.map (·.constant config)) ↔
      ∀ s ∈ settings, s.Writable config := by
  have hlength : settings.length ≤ (render config).toList.length := by
    have htext := congrArg List.length (render_eq config)
    rw [List.length_cons, List.length_flatMap] at htext
    have hblocks := List.length_le_sum_of_one_le
      (blocks.map fun b => ('\n' :: ((b.text config).toList ++ ['\n'])).length) (by simp)
    have hcount : blocks.length = 21 ∧ settings.length = 14 := ⟨rfl, rfl⟩
    rw [List.length_map] at hblocks
    omega
  obtain ⟨n, hn⟩ := Nat.exists_eq_add_of_le' hlength
  have h := constantsWithin_blocks_iff tidy_of_mem config n
  rw [filterMap_blocks, ← hn, ← render_eq, Source.constantsWithin_skip _ (Source.skip.eq_3 _)] at h
  exact h

end Constants
end CpuSteward.Config
