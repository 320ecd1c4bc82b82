import VirtualModem.Proofs.Json.Integers
import VirtualModem.Proofs.Sim.Configured
import VirtualModem.Proofs.Text.Unquoting
/-!
# What the text of a leaf tells

The text of a leaf ends with its type, so that leaves of different types have different texts,
whatever the values look like. Within a type the text determines the value, except for floats. The
message about a state that a card cannot have quotes the text, and so determines it too.
-/

namespace VirtualModem
set_option autoImplicit false
open Config Json

namespace Config

def LeafType.suffix (type : LeafType) : List Char :=
  (" (" ++ type.name ++ ")").toList

theorem LeafType.eq_of_suffix {a b : LeafType} (h : a.suffix <:+ b.suffix) : a = b := by
  let types : List LeafType := [.bool, .int, .float, .string]
  have hmem (type : LeafType) : type ∈ types := by cases type <;> decide
  have hapart : ∀ a ∈ types, ∀ b ∈ types, a.suffix <:+ b.suffix → a = b := by decide
  exact hapart a (hmem a) b (hmem b) h

theorem Leaf.toList_text (v : Leaf) : v.text.toList = v.valueText.toList ++ v.type.suffix := by
  rw [text, LeafType.suffix]
  simp only [String.toList_append, List.append_assoc]

theorem Leaf.type_eq_of_text_eq {v w : Leaf} (h : v.text = w.text) : v.type = w.type := by
  have hv : v.type.suffix <:+ v.text.toList := by
    rw [toList_text]
    exact List.suffix_append _ _
  have hw : w.type.suffix <:+ v.text.toList := by
    rw [h, toList_text]
    exact List.suffix_append _ _
  rcases List.suffix_or_suffix_of_suffix hv hw with hle | hle
  · exact LeafType.eq_of_suffix hle
  · exact (LeafType.eq_of_suffix hle).symm

theorem Leaf.valueText_inj {v w : Leaf} (htype : v.type = w.type) (hfloat : v.type ≠ .float)
    (h : v.valueText = w.valueText) : v = w := by
  cases v with
  | bool b =>
    cases w with
    | bool b' =>
      have hname : ∀ b b' : Bool, (bool b).valueText = (bool b').valueText → b = b' := by decide
      rw [hname b b' h]
    | _ => cases htype
  | int z =>
    cases w with
    | int z' =>
      have hchars := congrArg String.toList h
      rw [valueText, valueText, Numeral.toList_toString, Numeral.toList_toString,
        Numeral.toChars_ofInt_inj, Int64.toInt_inj] at hchars
      rw [hchars]
    | _ => cases htype
  | float bits => exact absurd rfl hfloat
  | string s =>
    cases w with
    | string s' =>
      have hread := congrArg Text.unquote? h
      rw [valueText, valueText, Text.unquote?_quote, Text.unquote?_quote] at hread
      rw [Option.some.inj hread]
    | _ => cases htype

theorem Leaf.text_inj {v w : Leaf} (hfloat : v.type ≠ .float) : v.text = w.text ↔ v = w := by
  constructor
  · intro h
    have htype := type_eq_of_text_eq h
    refine valueText_inj htype hfloat (String.toList_inj.mp ?_)
    have hchars := congrArg String.toList h
    rwa [toList_text, toList_text, htype, List.append_cancel_right_eq] at hchars
  · rintro rfl
    rfl

end Config

/-- Texts differ if neither of their beginnings continues the other. -/
theorem append_ne_append {a b : String} (h : ¬a.toList <+: b.toList ∧ ¬b.toList <+: a.toList)
    (x y : String) : a ++ x ≠ b ++ y := by
  intro heq
  have ha : a.toList <+: (a ++ x).toList := by
    rw [String.toList_append]
    exact List.prefix_append _ _
  have hb : b.toList <+: (a ++ x).toList := by
    rw [heq, String.toList_append]
    exact List.prefix_append _ _
  rcases List.prefix_or_prefix_of_prefix ha hb with hle | hle
  · exact h.1 hle
  · exact h.2 hle

theorem SetupError.eq_of_message_eq {e : SetupError} {path value detail : String}
    (h : e.message detail = (invalidValue path value).message detail) :
    e = .invalidValue path value := by
  have hmessage (path value : String) : (invalidValue path value).message detail =
      "invalid value " ++ (Text.quote value ++ (" at " ++ path)) := by
    rw [← String.append_assoc, ← String.append_assoc]
    rfl
  rw [hmessage] at h
  cases e with
  | config e => exact absurd h (append_ne_append (by decide) _ _)
  | adapter e => exact absurd h (append_ne_append (by decide) _ _)
  | invalidValue path' value' =>
    rw [hmessage, String.append_right_inj, Text.quote_append_inj, String.append_right_inj] at h
    rw [h.1, h.2]

theorem Sim.ite_fault_eq_some_iff {p : Prop} [Decidable p] {e e' : SetupError} :
    (if p then none else some e) = some e' ↔ ¬p ∧ e = e' := by
  split <;> simp_all

theorem Sim.stateFault_of_ofStore {st : Store} {value : String}
    (h : ofStore st = .error (.invalidValue (modemLeaf "sim/state") value)) :
    stateFault (configuredText st "sim/state" "Ready") =
      some (.invalidValue (modemLeaf "sim/state") value) := by
  have htype (suffix : String) (type : LeafType) :
      ¬typeFault st suffix type = some (.invalidValue (modemLeaf "sim/state") value) := by
    unfold typeFault
    cases st.get? (modemLeaf suffix) <;> simp
  have hslot : modemLeaf "sim/slot" ≠ modemLeaf "sim/state" := by decide
  have honly : ∀ fault ∈ configuredFaults st,
      fault = some (.invalidValue (modemLeaf "sim/state") value) →
        stateFault (configuredText st "sim/state" "Ready") =
          some (.invalidValue (modemLeaf "sim/state") value) := by
    simp only [configuredFaults, List.forall_mem_cons, htype, slotFault, pinFault, lengthFault,
      networkFault, ite_fault_eq_some_iff, SetupError.invalidValue.injEq, hslot, reduceCtorEq,
      false_and, and_false, false_implies, imp_self, true_and, List.not_mem_nil, implies_true]
  rw [ofStore_eq, unlessFault_eq_error_iff] at h
  obtain ⟨fault, hmem, hfault⟩ := List.exists_of_findSome?_eq_some h
  exact honly fault hmem hfault

theorem Sim.get?_state_of_ofStore {st : Store} {value : String}
    (h : ofStore st = .error (.invalidValue (modemLeaf "sim/state") value)) :
    st.get? (modemLeaf "sim/state") = some (.string value) := by
  have hready : stateFault "Ready" = none := by decide
  have hfault := stateFault_of_ofStore h
  have htext : configuredText st "sim/state" "Ready" = value := by
    unfold stateFault at hfault
    split at hfault
    · cases hfault
    · exact (SetupError.invalidValue.inj (Option.some.inj hfault)).2
  unfold configuredText at htext hfault
  split at htext
  case h_1 text hget => rw [hget, htext]
  case h_2 hnone =>
    split at hfault
    · exact absurd ‹_› (hnone _)
    · rw [hready] at hfault
      cases hfault

/-- The text of a leaf tells its value unless it is a float, and the message about a state that no
card can have tells what is configured. -/
theorem text_identifies_value :
    (∀ s, Text.unquote? (Leaf.string s).valueText = some s) ∧
      (∀ v w : Leaf, v.type ≠ .float → w.type ≠ .float → v.text = w.text → v = w) ∧
      (∀ (bits : UInt64) (w : Leaf), w.type ≠ .float → (Leaf.float bits).text ≠ w.text) ∧
      ∀ st st' value e detail,
        Sim.ofStore st = .error (.invalidValue (modemLeaf "sim/state") value) →
        Sim.ofStore st' = .error e →
        e.message detail =
            (SetupError.invalidValue (modemLeaf "sim/state") value).message detail →
        st.get? (modemLeaf "sim/state") = some (.string value) ∧
          st'.get? (modemLeaf "sim/state") = some (.string value) := by
  refine ⟨Text.unquote?_quote, ?_, ?_, ?_⟩
  · intro v w hv _ h
    exact (Leaf.text_inj hv).mp h
  · intro bits w hw h
    exact hw (Leaf.type_eq_of_text_eq h).symm
  · intro st st' value e detail hst hst' hmessage
    obtain rfl := SetupError.eq_of_message_eq hmessage
    exact ⟨Sim.get?_state_of_ofStore hst, Sim.get?_state_of_ofStore hst'⟩

/-- A line feed and the escape for it are told apart, and so are a number and a text that looks
like it. -/
theorem text_identifies_value_lookalikes :
    let escape : Store := ({} : Store).set (modemLeaf "sim/state") (.string "\\u\x7ba\x7d")
    let newline : Store := ({} : Store).set (modemLeaf "sim/state") (.string "\n")
    Sim.ofStore escape = .error (.invalidValue (modemLeaf "sim/state") "\\u\x7ba\x7d") ∧
      Sim.ofStore newline = .error (.invalidValue (modemLeaf "sim/state") "\n") ∧
      (SetupError.invalidValue (modemLeaf "sim/state") "\n").message "" ≠
        (SetupError.invalidValue (modemLeaf "sim/state") "\\u\x7ba\x7d").message "" ∧
      (Leaf.string "1 (int)").text ≠ (Leaf.int 1).text ∧
      (Leaf.float 0).text ≠ (Leaf.int 0).text := by
  intro escape newline
  obtain ⟨-, htext, hfloat, hmessage⟩ := text_identifies_value
  have hescape : Sim.ofStore escape =
      .error (.invalidValue (modemLeaf "sim/state") "\\u\x7ba\x7d") := by
    rw [Sim.ofStore_eq, Sim.unlessFault_eq_error_iff]
    decide +kernel
  have hnewline : Sim.ofStore newline = .error (.invalidValue (modemLeaf "sim/state") "\n") := by
    rw [Sim.ofStore_eq, Sim.unlessFault_eq_error_iff]
    decide +kernel
  refine ⟨hescape, hnewline, fun h => ?_, fun h => ?_, hfloat 0 (.int 0) (by decide)⟩
  · obtain ⟨-, hread⟩ := hmessage escape newline _ _ _ hescape hnewline h
    have hother : newline.get? (modemLeaf "sim/state") = some (.string "\n") := by decide
    rw [hother] at hread
    exact absurd hread (by decide)
  · cases htext _ _ (by decide) (by decide) h

end VirtualModem
