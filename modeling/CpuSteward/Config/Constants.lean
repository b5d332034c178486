import CpuSteward.Config.Document
import CpuSteward.Governor
import CpuSteward.Identity
import CpuSteward.Report

/-!
# Generated constants

The constants of the kernel module are generated from a configuration file.  Each
one has its place in the file and a default, which stands in where the file has
no value of the right type at that place.  A file that is missing or malformed
counts as one without entries.

How the text of a file becomes a configuration is left open: `Generated.ofReader` takes
any reader, and what is proved of the constants holds with all of them.  The reader of
`Generated.ofFile` is that of `CpuSteward.Config.Document`, which takes the files that
it describes and calls the others malformed.

## Main definitions

* `Setting`: a constant, with its place and its default.
* `Constants.chapters`: all constants in order.
* `Constants.render`: the generated text.
* `Generated.ofReader`: what a configuration file leads to, with any reader of files.
* `Generated.ofFile`: the same with the reader of `CpuSteward.Config.Document`.
-/

namespace CpuSteward.Config

/-- The default of a constant, which also fixes its type. -/
inductive Default where
  /-- A text. -/
  | text (s : String)
  /-- An integer. -/
  | number (n : Int)

/-- A generated constant. -/
structure Setting where
  /-- What the constant means. -/
  doc : String
  /-- Its name. -/
  name : String
  /-- Its type, as it is declared. -/
  type : String
  /-- The table of the file that has it. -/
  table : String
  /-- The key in that table. -/
  key : String
  /-- The value where the file has none. -/
  default : Default

namespace Setting

/-- The text that declares the value in a configuration.  A text stands between
quotes just as it is. -/
def literal (s : Setting) (config : Value) : String :=
  let found := (config.get? s.table).bind (·.get? s.key)
  match s.default with
  | .text t => "\"" ++ (found.bind Value.string?).getD t ++ "\""
  | .number n => Decimal.ofInt ((found.bind Value.integer?).getD n)

/-- The declaration, below a line that says what it means. -/
def declaration (s : Setting) (config : Value) : String :=
  "/// " ++ s.doc ++ "\npub const " ++ s.name ++ ": " ++ s.type ++ " = " ++ s.literal config ++ ";"

end Setting

/-- Constants that belong together. -/
structure Chapter where
  /-- What they are about. -/
  title : String
  /-- The constants in order. -/
  settings : List Setting

namespace Constants

/-- All constants in order. -/
def chapters : List Chapter := [
  ⟨"基本信息", [
    ⟨"子系统名称", "SCHEDCTL_NAME", "&str", "general", "name", .text Identity.name⟩,
    ⟨"子系统版本", "SCHEDCTL_VERSION", "&str", "general", "version", .text Identity.version⟩]⟩,
  ⟨"控制面配置", [
    ⟨"控制面根目录名", "PROC_ROOT_DIR", "&str", "procfs", "root_dir", .text Identity.directory⟩,
    ⟨"单次写入允许的最大字节数", "MAX_WRITE_LEN", "usize", "procfs", "max_write_len",
      .number IntLiteral.maxBytes⟩]⟩,
  ⟨"SMP 配置", [
    ⟨"最大CPU数量", "MAX_CPUS", "usize", "smp", "max_cpus", .number maxCpus⟩]⟩,
  ⟨"统计输出配置", [
    ⟨"gdsq_cnt 数组槽位数", "STATS_GDSQ_SLOTS", "usize", "stats", "gdsq_slots",
      .number Report.queueLines⟩,
    ⟨"pcp_* 数组槽位数", "STATS_PCP_SLOTS", "usize", "stats", "pcp_slots",
      .number Report.perCpuLines⟩,
    ⟨"CPU[i] 负载行数", "STATS_CPU_LINES", "usize", "stats", "cpu_lines",
      .number Report.loadLines⟩]⟩,
  ⟨"自适应策略配置", [
    ⟨"性能阈值下限", "THRESHOLD_MIN", "i32", "policy", "threshold_min",
      .number Threshold.lower.toInt⟩,
    ⟨"性能阈值上限", "THRESHOLD_MAX", "i32", "policy", "threshold_max",
      .number Threshold.upper.toInt⟩,
    ⟨"性能阈值单次调整步长", "THRESHOLD_STEP", "i32", "policy", "threshold_step",
      .number Threshold.step.toInt⟩,
    ⟨"过载判定倍数（nr_running > online_cpus * OVERLOAD_FACTOR）", "OVERLOAD_FACTOR", "u64",
      "policy", "overload_factor", .number LoadSample.overloadFactor.toNat⟩,
    ⟨"高负载判定倍数（total_load > online_cpus * HIGH_LOAD_FACTOR）", "HIGH_LOAD_FACTOR", "u64",
      "policy", "high_load_factor", .number Threshold.highLoadFactor.toNat⟩]⟩,
  ⟨"cpufreq 配置", [
    ⟨"保存的调速器名长度（含结尾 NUL）", "GOVERNOR_NAME_LEN", "usize", "cpufreq",
      "governor_name_len", .number NameSlot.size⟩]⟩]

/-- The lines at the head of the generated text. -/
def preamble : String :=
  "//! schedctl 配置（自动生成）\n//!\n//! 此文件由 build.rs 根据 Sched.toml 自动生成，请勿手动修改"

/-- The line above and below a title. -/
def rule : String := "// ============================================================"

/-- The paragraphs of a chapter: its title, then its declarations. -/
def paragraphs (config : Value) (c : Chapter) : List String :=
  (rule ++ "\n// " ++ c.title ++ "\n" ++ rule) :: c.settings.map fun s => s.declaration config

/-- The generated text: paragraphs with an empty line between them. -/
def render (config : Value) : String :=
  "\n\n".intercalate (preamble :: chapters.flatMap (paragraphs config)) ++ "\n"

/-- The lines of a generated text that begin a declaration. -/
def declarations (text : String) : List String :=
  ((Document.lines text.toList).filter fun line => "pub const ".toList.isPrefixOf line).map
    String.ofList

end Constants

/-- What is wrong with a configuration file. -/
inductive Warning where
  /-- There is no file. -/
  | missing
  /-- The file is malformed. -/
  | malformed
  deriving DecidableEq, Repr

/-- What a configuration file leads to. -/
structure Generated where
  /-- What is wrong with the file, if anything. -/
  warning : Option Warning
  /-- The generated text. -/
  text : String

namespace Generated

/-- Generate the constants from the text of a configuration file, which `read?` takes
apart. -/
def ofReader (read? : String → Option Value) : Option String → Generated
  | none => ⟨some .missing, Constants.render .empty⟩
  | some text =>
    match read? text with
    | none => ⟨some .malformed, Constants.render .empty⟩
    | some config => ⟨none, Constants.render config⟩

/-- Generate the constants from the text of a configuration file of the format that is
described in `CpuSteward.Config.Document`. -/
def ofFile (file : Option String) : Generated := ofReader Document.read? file

end Generated
end CpuSteward.Config
