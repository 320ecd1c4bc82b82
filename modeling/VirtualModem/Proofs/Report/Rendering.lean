import Mathlib.Data.List.Forall2
import VirtualModem.Proofs.Gnss.PositionText
import VirtualModem.Proofs.Json.ValueTypes
import VirtualModem.Proofs.Report.ReadBack
/-!
# The text of a report from its JSON form

The two forms of a report are written independently of each other. Nevertheless the text is what one
gets by reading the JSON form and showing each of its values behind a label; so it tells nothing more
than the JSON form does.
-/

namespace VirtualModem
set_option autoImplicit false
open Json Config

namespace Report

/-- What is shown for a value: a dash for one that is absent, a text as it is, a number in decimal
and the text of a position. -/
def shown? : Tree → Option String
  | .null => some "-"
  | .string text => string? text
  | .number n => n.integer?.map toString
  | t => (Form.ofTree? t : Option Gnss.Position).map Gnss.Position.text

/-- The labels in their order, and the keys that lead to the values behind them. -/
def entries : List (String × List String) := [
  ("IMEI:               ", ["imei"]),
  ("Firmware version:   ", ["firmware_version"]),
  ("Bootloader version: ", ["bootloader_version"]),
  ("Device model:       ", ["device_model"]),
  ("SIM card:           ", ["sim", "card"]),
  ("SIM state:          ", ["sim", "state"]),
  ("PIN attempts left:  ", ["sim", "pin_remaining_attempts"]),
  ("PUK attempts left:  ", ["sim", "puk_remaining_attempts"]),
  ("ICCID:              ", ["sim", "iccid"]),
  ("IMSI:               ", ["sim", "imsi"]),
  ("GNSS fix:           ", ["gnss_fix"])]

def under? : List String → Tree → Option Tree
  | [], t => some t
  | key :: keys, .object members => do under? keys (← Tree.member? (← Tree.keyed? members) key)
  | _ :: _, _ => none

def line? (t : Tree) (e : String × List String) : Option String := do
  return e.1 ++ (← shown? (← under? e.2 t))

/-- Reads the JSON form of a report and shows what it holds. -/
def render? (json : String) : Option String := do
  let t ← Tree.ofString? json
  return "\n".intercalate (← entries.mapM (line? t))

theorem shown?_ofString (s : String) : shown? (.ofString s) = some s := string?_pieces s

theorem shown?_ofInt (z : Int) : shown? (.ofInt z) = some (toString z) := by
  rw [Tree.ofInt, shown?, Numeral.integer?_ofInt, Option.map_some]

theorem shown?_position (p : Gnss.Position) : shown? (Form.toTree p) = some p.text := by
  show (Form.ofTree? (Form.toTree p) : Option Gnss.Position).map Gnss.Position.text = _
  rw [Gnss.hasShape_position.read, Option.map_some]

theorem shown?_ofOption {α : Type} {f : α → Tree} {g : α → String}
    (h : ∀ a, shown? (f a) = some (g a)) (o : Option α) :
    shown? (.ofOption f o) = some ((o.map g).getD "-") := by
  cases o with
  | none => rfl
  | some a => exact h a

theorem line?_eq {t u : Tree} {label : String} {keys : List String} {o : Option String}
    (hunder : under? keys t = some u) (hshown : shown? u = some (o.getD "-")) :
    line? t (label, keys) = some (label ++ o.getD "-") := by
  rw [line?, hunder, Option.bind_eq_bind, Option.bind_some, hshown]
  rfl

theorem mapM_line?_toTree (r : Report) : entries.mapM (line? r.toTree) = some r.lines := by
  have htext (o : Option String) : shown? (.ofOption .ofString o) = some (o.getD "-") := by
    rw [shown?_ofOption shown?_ofString, Option.map_id']
  have hname {α : Type} [Named α] (o : Option α) :
      shown? (.ofOption (fun x => .ofString (Named.name x)) o) =
        some ((o.map Named.name).getD "-") :=
    shown?_ofOption (fun x => shown?_ofString (Named.name x)) o
  have hnumber (o : Option Nat) :
      shown? (.ofOption (fun n => .ofInt n) o) = some ((o.map toString).getD "-") := by
    cases o with
    | none => rfl
    | some n => exact shown?_ofInt n
  refine mapM_eq_some_iff.mpr ?_
  exact .cons (line?_eq rfl (htext r.imei)) <|
    .cons (line?_eq rfl (htext r.firmware)) <|
    .cons (line?_eq rfl (htext r.bootloader)) <|
    .cons (line?_eq rfl (htext r.model)) <|
    .cons (line?_eq rfl (hname r.card.slot)) <|
    .cons (line?_eq rfl (hname r.card.state)) <|
    .cons (line?_eq rfl (hnumber r.card.pinAttempts)) <|
    .cons (line?_eq rfl (hnumber r.card.pukAttempts)) <|
    .cons (line?_eq rfl (htext r.card.iccid)) <|
    .cons (line?_eq rfl (htext r.card.imsi)) <|
    .cons (line?_eq rfl (shown?_ofOption shown?_position r.fix)) .nil

theorem render?_json {st : Store} {p : Platform} (h : Platform.Reachable st p) :
    render? (ofPlatform st p).json = some (ofPlatform st p).text := by
  have hread : Tree.ofString? (ofPlatform st p).json = some (ofPlatform st p).toTree :=
    (fits_ofPlatform h).1.plain.ofString?_toPrettyString
  rw [render?, hread, Option.bind_eq_bind, Option.bind_some, mapM_line?_toTree]
  rfl

def strings (r : Report) : List (Option String) :=
  [r.imei, r.firmware, r.bootloader, r.model, r.card.iccid, r.card.imsi]

theorem newline_notMem_line {label : String} {o : Option String}
    (hlabel : '\n' ∉ (label ++ ":").toList.rightpad valueColumn ' ')
    (ho : ∀ s ∈ o, '\n' ∉ s.toList) : '\n' ∉ (line label o).toList := by
  rw [line, String.toList_append, String.toList_ofList, List.mem_append, not_or]
  refine ⟨hlabel, ?_⟩
  cases o with
  | none => decide
  | some s => exact ho s rfl

theorem newline_notMem_lines {r : Report} (h : ∀ o ∈ r.strings, ∀ s ∈ o, '\n' ∉ s.toList) :
    ∀ l ∈ r.lines, '\n' ∉ l.toList := by
  have hmap {α : Type} {f : α → String} (hf : ∀ a, '\n' ∉ (f a).toList) (o : Option α) :
      ∀ s ∈ o.map f, '\n' ∉ s.toList := by
    intro s hs
    obtain ⟨a, -, rfl⟩ := Option.map_eq_some_iff.mp hs
    exact hf a
  have hslot (x : Sim.Slot) : '\n' ∉ (Named.name x).toList := by cases x <;> decide
  have hstate (x : Sim.State) : '\n' ∉ (Named.name x).toList := by cases x <;> decide
  have hnumber (n : Nat) : '\n' ∉ (toString n).toList := by
    have hinteger : (toString n).toList = (Numeral.ofInt n).toChars := Numeral.toList_toString n
    rw [hinteger]
    exact (Numeral.writes_ofInt n).notMem (by decide)
  simp only [strings, List.forall_mem_cons] at h
  obtain ⟨himei, hfirmware, hbootloader, hmodel, hiccid, himsi, -⟩ := h
  simp only [lines, List.forall_mem_cons]
  exact ⟨newline_notMem_line (by decide) himei, newline_notMem_line (by decide) hfirmware,
    newline_notMem_line (by decide) hbootloader, newline_notMem_line (by decide) hmodel,
    newline_notMem_line (by decide) (hmap hslot _), newline_notMem_line (by decide) (hmap hstate _),
    newline_notMem_line (by decide) (hmap hnumber _),
    newline_notMem_line (by decide) (hmap hnumber _), newline_notMem_line (by decide) hiccid,
    newline_notMem_line (by decide) himsi,
    newline_notMem_line (by decide) (hmap Gnss.Position.newline_notMem_text _), nofun⟩

theorem toList_text (r : Report) : r.text.toList = ['\n'].intercalate (r.lines.map String.toList) :=
  String.toList_intercalate

theorem getLast?_text {r : Report} (h : ∀ l ∈ r.lines, '\n' ∉ l.toList) :
    r.text.toList.getLast? ≠ some '\n' := by
  let last := line "GNSS fix" (r.fix.map Gnss.Position.text)
  have hsplit : r.text = "\n".intercalate (r.lines.take 10) ++ "\n" ++ last := rfl
  have hlast : last ∈ r.lines := List.mem_of_getElem? (i := 10) rfl
  have hne : last.toList ≠ [] := by
    show (line _ _).toList ≠ []
    rw [line, String.toList_append, String.toList_ofList]
    exact List.append_ne_nil_of_left_ne_nil (List.cons_ne_nil _ _) _
  intro hnewline
  rw [hsplit, String.toList_append, List.getLast?_append_of_ne_nil _ hne] at hnewline
  exact h last hlast (List.mem_of_getLast? hnewline)

/-- The text is rendered from the JSON form, so equal JSON forms have equal texts, and it has one
line for each entry. -/
theorem text_rendered_from_json {st : Store} {p : Platform} (h : Platform.Reachable st p) :
    render? (ofPlatform st p).json = some (ofPlatform st p).text ∧
      (∀ st' p', Platform.Reachable st' p' → (ofPlatform st' p').json = (ofPlatform st p).json →
        (ofPlatform st' p').text = (ofPlatform st p).text) ∧
      ((∀ o ∈ (ofPlatform st p).strings, ∀ s ∈ o, '\n' ∉ s.toList) →
        ((ofPlatform st p).text.toList.splitOn '\n').length = 11 ∧
          (ofPlatform st p).text.toList.getLast? ≠ some '\n') := by
  refine ⟨render?_json h, ?_, ?_⟩
  · intro st' p' h' hjson
    have hsame : some (ofPlatform st' p').text = some (ofPlatform st p).text := by
      rw [← render?_json h', ← render?_json h, hjson]
    exact Option.some.inj hsame
  · intro hstrings
    have hlines := newline_notMem_lines hstrings
    refine ⟨?_, getLast?_text hlines⟩
    rw [toList_text, List.splitOn_intercalate '\n' (List.forall_mem_map.mpr hlines)
      (List.cons_ne_nil _ _), List.length_map]
    rfl

/-- The IMEI needs escapes in JSON, and a note in the store does not show. -/
theorem text_rendered_from_json_escaped :
    let st := (Platform.activated {}).set (modemLeaf "info/imei") (.string "\"\\\té")
    let st' := st.set "note" (.bool true)
    let p : Platform :=
      { sim := { state := .inserted }, gnss := { fix := some { latitude := -1 } }, machine := "arm" }
    Platform.Reachable st p ∧ Platform.Reachable st' p ∧
      render? (ofPlatform st p).json = some (ofPlatform st p).text ∧
      (ofPlatform st' p).text = (ofPlatform st p).text ∧
      ((ofPlatform st p).text.toList.splitOn '\n').length = 11 := by
  intro st st' p
  have hreach : Platform.Reachable st p :=
    (((Platform.reachable_fresh "arm").sim (.control (.reportState .inserted))).gnss
      (.reportPosition { latitude := -1 })).store (.set (modemLeaf "info/imei") _)
  have hreach' : Platform.Reachable st' p := hreach.store (.set "note" (.bool true))
  obtain ⟨hrender, hsame, hlines⟩ := text_rendered_from_json hreach
  have hreport : ofPlatform st' p = ofPlatform st p := by decide
  have hstrings : ∀ o ∈ (ofPlatform st p).strings, ∀ s ∈ o, '\n' ∉ s.toList := by decide
  exact ⟨hreach, hreach', hrender, hsame st' p hreach' (congrArg json hreport), (hlines hstrings).1⟩

end Report

end VirtualModem
