import VirtualModem.Session
/-!
# What is told about the modem

A piece of information is the text of one leaf, whole and unchanged, or an error. Lengths are
counted in bytes, so a limit may fall inside a character, but no text is ever cut at it. Only the
model has something else to fall back on than a fixed text, and does so for an empty text too.
-/

namespace VirtualModem.Info
set_option autoImplicit false
open Config

/-- A question about the modem, with the leaf that holds the answer and the greatest number of bytes
that the answer may have. -/
structure Field where
  query : Query
  path : String
  limit : Nat

namespace Field

def imei : Field := ⟨.imei, "/simulation/modem/info/imei", 15⟩
def firmware : Field := ⟨.firmware, "/simulation/modem/info/fwVersion", 256⟩
def bootloader : Field := ⟨.bootloader, "/simulation/modem/info/bootVersion", 256⟩
def model : Field := ⟨.model, "/simulation/modem/info/deviceModel", 256⟩

theorem modemLeaf_eq :
    modemLeaf "info/imei" = imei.path ∧ modemLeaf "info/fwVersion" = firmware.path ∧
      modemLeaf "info/bootVersion" = bootloader.path ∧
      modemLeaf "info/deviceModel" = model.path := by
  decide

end Field

/-- What is read from a leaf: a text within the limit as it is, and the default without a leaf. -/
inductive Reads (default : String) (limit : Nat) :
    Option Leaf → Except AdapterError String → Prop
  | absent : Reads default limit none (.ok default)
  | mistyped {v : Leaf} (h : v.type ≠ .string) : Reads default limit (some v) (.error .fault)
  | overlong {s : String} (h : limit < s.utf8ByteSize) :
    Reads default limit (some (.string s)) (.error (.overflow s.utf8ByteSize limit))
  | whole {s : String} (h : s.utf8ByteSize ≤ limit) :
    Reads default limit (some (.string s)) (.ok s)

theorem checkLength_map_of_le {s : String} {limit : Nat} (h : s.utf8ByteSize ≤ limit) :
    (checkLength s limit).map (fun _ => s) = .ok s := by
  rw [(checkLength_eq_ok_iff s limit).mpr h]
  rfl

theorem reads_read (st : Store) (suffix : String) {default : String} {limit : Nat}
    (hdefault : default.utf8ByteSize ≤ limit) :
    Reads default limit (st.get? (modemLeaf suffix)) (read st suffix default limit) := by
  rw [read, Store.getString]
  cases st.get? (modemLeaf suffix) with
  | none =>
    dsimp only
    rw [checkLength_map_of_le hdefault]
    exact .absent
  | some v =>
    cases v with
    | string s =>
      dsimp only
      by_cases hs : s.utf8ByteSize ≤ limit
      · rw [checkLength_map_of_le hs]
        exact .whole hs
      · rw [checkLength, if_pos (Nat.lt_of_not_le hs)]
        exact .overlong (Nat.lt_of_not_le hs)
    | bool b => exact .mistyped (by rw [Leaf.type]; decide)
    | int z => exact .mistyped (by rw [Leaf.type]; decide)
    | float bits => exact .mistyped (by rw [Leaf.type]; decide)

namespace Reads
variable {default : String} {limit : Nat} {leaf : Option Leaf} {answer : Except AdapterError String}

theorem fault_iff (h : Reads default limit leaf answer) :
    answer = .error .fault ↔ ∃ v, leaf = some v ∧ v.type ≠ .string := by
  cases h with
  | absent => simp
  | mistyped hv => simp [hv]
  | overlong hs => simp [Leaf.type]
  | whole hs => simp [Leaf.type]

theorem overflow_iff (h : Reads default limit leaf answer) (length max : Nat) :
    answer = .error (.overflow length max) ↔
      ∃ s, leaf = some (.string s) ∧ limit < s.utf8ByteSize ∧ length = s.utf8ByteSize ∧
        max = limit := by
  cases h with
  | absent => simp
  | mistyped hv =>
    constructor
    · nofun
    · rintro ⟨s, hs, -⟩
      cases hs
      exact absurd rfl hv
  | overlong hs => simp [hs, eq_comm]
  | whole hs =>
    constructor
    · nofun
    · rintro ⟨s, heq, hlt, -⟩
      cases heq
      exact absurd hs (Nat.not_le_of_lt hlt)

theorem ok_iff (h : Reads default limit leaf answer) (s : String) :
    answer = .ok s ↔
      leaf = some (.string s) ∧ s.utf8ByteSize ≤ limit ∨ leaf = none ∧ s = default := by
  cases h with
  | absent => simp [eq_comm]
  | mistyped hv =>
    constructor
    · nofun
    · rintro (⟨hs, -⟩ | ⟨hs, -⟩)
      · cases hs
        exact absurd rfl hv
      · cases hs
  | overlong hs =>
    constructor
    · nofun
    · rintro (⟨heq, hle⟩ | ⟨heq, -⟩)
      · cases heq
        exact absurd hle (Nat.not_le_of_lt hs)
      · cases heq
  | whole hs =>
    simp only [Except.ok.injEq, Option.some.injEq, Leaf.string.injEq, reduceCtorEq, false_and,
      or_false]
    constructor
    · rintro rfl
      exact ⟨rfl, hs⟩
    · exact And.left

end Reads

/-- A machine that gives its name to a model. -/
def NamesModel (machine name : String) : Prop :=
  machine ∈ ["arm", "armv5tejl", "armv7l"] ∧ name = "VIRT_ARM" ∨
    machine ∈ ["x86", "i686"] ∧ name = "VIRT_X86"

/-- A leaf that leaves the model to the machine. -/
def Blank (leaf : Option Leaf) : Prop :=
  leaf = none ∨ leaf = some (.string "")

theorem machineModel_eq_ok_iff {machine name : String} :
    machineModel machine = .ok name ↔ NamesModel machine name := by
  have harm : machine ∈ ["arm", "armv5tejl", "armv7l"] ↔
      machine = "arm" ∨ machine = "armv5tejl" ∨ machine = "armv7l" := by simp
  have hx86 : machine ∈ ["x86", "i686"] ↔ machine = "x86" ∨ machine = "i686" := by simp
  rw [NamesModel, harm, hx86, machineModel]
  split
  · rename_i h
    have hnot : ¬(machine = "x86" ∨ machine = "i686") := by
      rcases h with rfl | rfl | rfl <;> decide
    simp [h, hnot, eq_comm]
  · rename_i h
    split
    · rename_i h'
      simp [h, h', eq_comm]
    · rename_i h'
      simp [h, h']

theorem machineModel_eq_error_iff {machine : String} {e : AdapterError} :
    machineModel machine = .error e ↔ e = .fault ∧ ∀ name, ¬NamesModel machine name := by
  simp only [← machineModel_eq_ok_iff]
  unfold machineModel
  split
  · simp
  · split
    · simp
    · simp [eq_comm]

section Model
variable {machine : String} {st : Store}

theorem reads_model (st : Store) :
    Reads "" 256 (st.get? Field.model.path) (read st "info/deviceModel" "" modelLimit) := by
  rw [← Field.modemLeaf_eq.2.2.2]
  exact reads_read st _ (by decide)

theorem read_model_eq_empty_iff (st : Store) :
    read st "info/deviceModel" "" modelLimit = .ok "" ↔ Blank (st.get? Field.model.path) := by
  rw [(reads_model st).ok_iff, Blank, or_comm]
  simp

theorem model_eq_ok_iff {s : String} :
    model machine st = .ok s ↔
      st.get? Field.model.path = some (.string s) ∧ s ≠ "" ∧ s.utf8ByteSize ≤ 256 ∨
        Blank (st.get? Field.model.path) ∧ NamesModel machine s := by
  have hread := (reads_model st).ok_iff
  rw [model, bind_eq_ok_iff, ← read_model_eq_empty_iff, ← machineModel_eq_ok_iff]
  constructor
  · rintro ⟨name, hname, hs⟩
    split at hs
    · rename_i hempty
      rw [hempty] at hname
      exact .inr ⟨hname, hs⟩
    · rename_i hne
      cases hs
      rcases (hread s).mp hname with ⟨hleaf, hsize⟩ | ⟨-, hempty⟩
      · exact .inl ⟨hleaf, hne, hsize⟩
      · exact absurd hempty hne
  · rintro (⟨hleaf, hne, hsize⟩ | ⟨hname, hs⟩)
    · exact ⟨s, (hread s).mpr (.inl ⟨hleaf, hsize⟩), if_neg hne⟩
    · exact ⟨"", hname, hs⟩

theorem model_eq_error_iff {e : AdapterError} :
    model machine st = .error e ↔
      read st "info/deviceModel" "" modelLimit = .error e ∨
        Blank (st.get? Field.model.path) ∧ e = .fault ∧ ∀ name, ¬NamesModel machine name := by
  rw [← read_model_eq_empty_iff, ← machineModel_eq_error_iff, Info.model]
  cases read st "info/deviceModel" "" modelLimit with
  | error e' => simp [bind, Except.bind]
  | ok name =>
    by_cases hname : name = "" <;> simp [hname, bind, Except.bind, pure, Except.pure]

end Model

def texts : List (Field × String) := [
  (.imei, "314159265358979"),
  (.firmware, "Firmware 1.00"),
  (.bootloader, "Bootloader 1.00")]

def allFields : List Field :=
  [.imei, .firmware, .bootloader, .model]

theorem reads_answer (machine : String) (st : Store) {x : Field × String} (hx : x ∈ texts) :
    Reads x.2 x.1.limit (st.get? x.1.path) (answer machine st x.1.query) := by
  obtain ⟨himei, hfirmware, hbootloader, -⟩ := Field.modemLeaf_eq
  simp only [texts, List.mem_cons, List.not_mem_nil, or_false] at hx
  rcases hx with rfl | rfl | rfl
  · rw [← himei]
    exact reads_read st _ (by decide)
  · rw [← hfirmware]
    exact reads_read st _ (by decide)
  · rw [← hbootloader]
    exact reads_read st _ (by decide)

theorem Reads.size_le {default : String} {limit : Nat} {leaf : Option Leaf}
    {answer : Except AdapterError String} (h : Reads default limit leaf answer)
    (hdefault : default.utf8ByteSize ≤ limit) {s : String} (hs : answer = .ok s) :
    s.utf8ByteSize ≤ limit := by
  rcases (h.ok_iff s).mp hs with ⟨-, hle⟩ | ⟨-, rfl⟩
  · exact hle
  · exact hdefault

theorem size_answer_le (machine : String) (st : Store) {x : Field} (hx : x ∈ allFields)
    {s : String} (hs : answer machine st x.query = .ok s) : s.utf8ByteSize ≤ x.limit := by
  have htext {y : Field × String} (hy : y ∈ texts) (hdefault : y.2.utf8ByteSize ≤ y.1.limit)
      (hs : answer machine st y.1.query = .ok s) : s.utf8ByteSize ≤ y.1.limit :=
    (reads_answer machine st hy).size_le hdefault hs
  simp only [allFields, List.mem_cons, List.not_mem_nil, or_false] at hx
  rcases hx with rfl | rfl | rfl | rfl
  · exact htext (.head _) (by decide) hs
  · exact htext (.tail _ (.head _)) (by decide) hs
  · exact htext (.tail _ (.tail _ (.head _))) (by decide) hs
  · rcases model_eq_ok_iff.mp hs with ⟨-, -, hle⟩ | ⟨-, ⟨-, rfl⟩ | ⟨-, rfl⟩⟩
    · exact hle
    · decide
    · decide

theorem answer_congr_of_leaf (machine : String) {st tree : Store} {x : Field}
    (hx : x ∈ allFields) (h : tree.get? x.path = st.get? x.path) :
    answer machine tree x.query = answer machine st x.query := by
  obtain ⟨himei, hfirmware, hbootloader, hmodel⟩ := Field.modemLeaf_eq
  simp only [allFields, List.mem_cons, List.not_mem_nil, or_false] at hx
  rcases hx with rfl | rfl | rfl | rfl
  · rw [← himei] at h
    exact read_congr h _ _
  · rw [← hfirmware] at h
    exact read_congr h _ _
  · rw [← hbootloader] at h
    exact read_congr h _ _
  · rw [← hmodel] at h
    show model machine tree = model machine st
    rw [model, model, read_congr h]

theorem information_whole_or_refused (machine : String) (st : Store) :
    (∀ x ∈ texts,
      let leaf := st.get? x.1.path
      let told := answer machine st x.1.query
      (told = .error .fault ↔ ∃ v, leaf = some v ∧ v.type ≠ .string) ∧
      (∀ length max, told = .error (.overflow length max) ↔
        ∃ s, leaf = some (.string s) ∧ x.1.limit < s.utf8ByteSize ∧
          length = s.utf8ByteSize ∧ max = x.1.limit) ∧
      ∀ s, told = .ok s ↔
        leaf = some (.string s) ∧ s.utf8ByteSize ≤ x.1.limit ∨ leaf = none ∧ s = x.2) ∧
    (let leaf := st.get? Field.model.path
      let told := answer machine st .model
      (told = .error .fault ↔ (∃ v, leaf = some v ∧ v.type ≠ .string) ∨
        Blank leaf ∧ ∀ name, ¬NamesModel machine name) ∧
      (∀ length max, told = .error (.overflow length max) ↔
        ∃ s, leaf = some (.string s) ∧ 256 < s.utf8ByteSize ∧
          length = s.utf8ByteSize ∧ max = 256) ∧
      ∀ s, told = .ok s ↔
        leaf = some (.string s) ∧ s ≠ "" ∧ s.utf8ByteSize ≤ 256 ∨
          Blank leaf ∧ NamesModel machine s) ∧
    ∀ x ∈ allFields,
      (∀ s, answer machine st x.query = .ok s → s.utf8ByteSize ≤ x.limit) ∧
      (∀ tree : Store, tree.get? x.path = st.get? x.path →
        answer machine tree x.query = answer machine st x.query) ∧
      ∀ w : Session, w.store = st → w.machine = some machine →
        (w.perform (.info x.query)).session = w ∧
          (w.perform (.info x.query)).answer = .info (answer machine st x.query) := by
  refine ⟨fun x hx => ?_, ⟨?_, fun length max => ?_, fun s => model_eq_ok_iff⟩, fun x hx => ?_⟩
  · have hreads := reads_answer machine st hx
    exact ⟨hreads.fault_iff, hreads.overflow_iff, hreads.ok_iff⟩
  · show model machine st = _ ↔ _
    rw [model_eq_error_iff, (reads_model st).fault_iff]
    simp
  · show model machine st = _ ↔ _
    rw [model_eq_error_iff, (reads_model st).overflow_iff]
    simp
  · refine ⟨fun s => size_answer_le machine st hx, fun tree => answer_congr_of_leaf machine hx, ?_⟩
    rintro w rfl hmachine
    rw [Session.perform, hmachine]
    exact ⟨rfl, rfl⟩

/-- Five characters of three bytes are an identity, six are too many. A model that is configured
empty is that of the machine, and a firmware version that is configured empty is shown so. -/
theorem information_whole_or_refused_multibyte :
    let st := ({} : Store).set Field.imei.path (.string "日本日本日")
      |>.set Field.firmware.path (.string "")
      |>.set Field.model.path (.string "")
    answer "armv7l" st .imei = .ok "日本日本日" ∧
      answer "armv7l" (st.set Field.imei.path (.string "日本日本日本")) .imei =
        .error (.overflow 18 15) ∧
      answer "armv7l" st .firmware = .ok "" ∧
      answer "armv7l" st .bootloader = .ok "Bootloader 1.00" ∧
      answer "armv7l" st .model = .ok "VIRT_ARM" ∧
      answer "riscv64" st .model = .error .fault := by
  intro st
  obtain ⟨htexts, ⟨-, -, hmodel⟩, -⟩ := information_whole_or_refused "armv7l" st
  obtain ⟨hlonger, -⟩ :=
    information_whole_or_refused "armv7l" (st.set Field.imei.path (.string "日本日本日本"))
  obtain ⟨-, ⟨hunknown, -⟩, -⟩ := information_whole_or_refused "riscv64" st
  have himei : (Field.imei, "314159265358979") ∈ texts := .head _
  have hfirmware : (Field.firmware, "Firmware 1.00") ∈ texts := .tail _ (.head _)
  have hbootloader : (Field.bootloader, "Bootloader 1.00") ∈ texts := .tail _ (.tail _ (.head _))
  have hblank : Blank (st.get? Field.model.path) := .inr (by decide +kernel)
  refine ⟨((htexts _ himei).2.2 _).mpr (.inl (by decide +kernel)),
    ((hlonger _ himei).2.1 18 15).mpr ⟨"日本日本日本", by decide +kernel⟩,
    ((htexts _ hfirmware).2.2 _).mpr (.inl (by decide +kernel)),
    ((htexts _ hbootloader).2.2 _).mpr (.inr (by decide +kernel)),
    (hmodel _).mpr (.inr ⟨hblank, .inl ⟨by decide, rfl⟩⟩),
    hunknown.mpr (.inr ⟨hblank, ?_⟩)⟩
  rintro name (⟨hmem, -⟩ | ⟨hmem, -⟩) <;> revert hmem <;> decide

end VirtualModem.Info
