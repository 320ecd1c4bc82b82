import VirtualModem.Report
import VirtualModem.Proofs.Sim.Concealment
/-!
# What a report tells about the subscriber

The IMSI is the one thing about the subscriber that a report holds, and it holds it for a ready card
only. It stands in one place of either form of the report.
-/

namespace VirtualModem
set_option autoImplicit false
open Config

namespace Json.Tree

theorem prettyMembers_append (level : Nat) (ms ms' : List (List Piece × Tree)) :
    prettyMembers level (ms ++ ms') = prettyMembers level ms ++ prettyMembers level ms' := by
  induction ms with
  | nil => rfl
  | cons m ms ih =>
    obtain ⟨k, t⟩ := m
    rw [List.cons_append, prettyMembers, prettyMembers, ih]
    simp only [List.append_assoc, List.cons_append]

/-- What is written around a member of an object does not depend on the member. -/
theorem exists_pretty_around (level : Nat) (first : List Piece × Tree)
    (ms ms' : List (List Piece × Tree)) (key : List Piece) :
    ∃ before after, ∀ t, (Tree.object (first :: ms ++ (key, t) :: ms')).pretty level =
      before ++ t.pretty (level + 1) ++ after := by
  obtain ⟨k, u⟩ := first
  refine ⟨'\x7b' :: newline (level + 1) ++ quote k ++ ':' :: ' ' :: u.pretty (level + 1) ++
      prettyMembers (level + 1) ms ++ ',' :: newline (level + 1) ++ quote key ++ [':', ' '],
    prettyMembers (level + 1) ms' ++ newline level ++ ['\x7d'], fun t => ?_⟩
  rw [List.cons_append, pretty, prettyMembers_append, prettyMembers]
  simp only [List.append_assoc, List.cons_append, List.nil_append]

end Json.Tree

namespace Report
open Json

def quoted (s : String) : String :=
  .ofList (Json.quote (pieces s))

def withImsi (r : Report) (imsi : Option String) : Report :=
  { r with card.imsi := imsi }

theorem exists_text_around (r : Report) :
    ∃ before after, ∀ imsi, (r.withImsi (some imsi)).text = before ++ imsi ++ after := by
  let label := String.ofList (("IMSI" ++ ":").toList.rightpad valueColumn ' ')
  refine ⟨"\n".intercalate (r.lines.take 9) ++ "\n" ++ label,
    "\n" ++ line "GNSS fix" (r.fix.map Gnss.Position.text), fun imsi => ?_⟩
  have hlines : (r.withImsi (some imsi)).text =
      "\n".intercalate (r.lines.take 9) ++ "\n" ++ (label ++ imsi) ++ "\n" ++
        line "GNSS fix" (r.fix.map Gnss.Position.text) := rfl
  rw [hlines]
  simp only [String.append_assoc]

theorem exists_json_around (r : Report) :
    ∃ before after, ∀ imsi, (r.withImsi (some imsi)).json = before ++ quoted imsi ++ after := by
  obtain ⟨inner, inner', hinner⟩ := Tree.exists_pretty_around 1
    (pieces "card", .ofOption Form.toTree r.card.slot)
    [(pieces "state", .ofOption Form.toTree r.card.state),
      (pieces "pin_remaining_attempts", .ofOption (fun n => .ofInt n) r.card.pinAttempts),
      (pieces "puk_remaining_attempts", .ofOption (fun n => .ofInt n) r.card.pukAttempts),
      (pieces "iccid", .ofOption .ofString r.card.iccid)] [] (pieces "imsi")
  obtain ⟨outer, outer', houter⟩ := Tree.exists_pretty_around 0
    (pieces "imei", .ofOption .ofString r.imei)
    [(pieces "firmware_version", .ofOption .ofString r.firmware),
      (pieces "bootloader_version", .ofOption .ofString r.bootloader),
      (pieces "device_model", .ofOption .ofString r.model)]
    [(pieces "gnss_fix", .ofOption Form.toTree r.fix)] (pieces "sim")
  refine ⟨.ofList (outer ++ inner), .ofList (inner' ++ outer'), fun imsi => ?_⟩
  have hcard := hinner (.ofString imsi)
  have hjson := houter ((r.withImsi (some imsi)).card.toTree)
  rw [json, Tree.toPrettyString, quoted, ← String.ofList_append, ← String.ofList_append]
  refine congrArg String.ofList (hjson.trans ?_)
  have hquoted : (Tree.ofString imsi).pretty 2 = quote (pieces imsi) := by
    rw [Tree.ofString, Tree.pretty]
  have hmember : (r.withImsi (some imsi)).card.toTree.pretty 1 =
      inner ++ quote (pieces imsi) ++ inner' := by
    rw [← hquoted]
    exact hcard
  rw [hmember]
  simp only [List.append_assoc]

/-- The leaves that a card takes what it tells about its subscriber from. -/
def subscriberLeaves : List String :=
  ["sim/imsi", "sim/phoneNumber", "sim/operator", "sim/mcc", "sim/mnc"].map modemLeaf

/-- Stores that differ at most in what they hold for the subscriber. -/
def AgreeElsewhere (st st' : Store) : Prop :=
  ∀ path, canonical path ∉ subscriberLeaves → st.get? path = st'.get? path

section Alike
variable {st st' : Store} (hst : AgreeElsewhere st st')
include hst

theorem read_congr {suffix : String} (h : canonical (modemLeaf suffix) ∉ subscriberLeaves)
    (default : String) (limit : Nat) :
    Info.read st suffix default limit = Info.read st' suffix default limit :=
  Info.read_congr (hst _ h) default limit

variable {s s' : Sim} (hs : s.concealed = s'.concealed)
include hs

theorem withImsi_ofPlatform (gnss : Gnss.Engine) (machine : String) (imsi : Option String) :
    (ofPlatform st ⟨s, gnss, machine⟩).withImsi imsi =
      (ofPlatform st' ⟨s', gnss, machine⟩).withImsi imsi := by
  have himei : Info.imei st = Info.imei st' := read_congr hst (by decide) _ _
  have hfirmware : Info.firmware st = Info.firmware st' := read_congr hst (by decide) _ _
  have hbootloader : Info.bootloader st = Info.bootloader st' := read_congr hst (by decide) _ _
  have hmodel : Info.model machine st = Info.model machine st' := by
    rw [Info.model, Info.model, read_congr hst (by decide)]
  have hcard : CardReport.ofSim s = { CardReport.ofSim s' with imsi := s.readImsi.toOption } := by
    rw [Sim.eq_withSubscriber_of_concealed hs]
    rfl
  rw [ofPlatform, ofPlatform, himei, hfirmware, hbootloader, hmodel, hcard]
  rfl

theorem ofPlatform_of_not_ready (hready : s.state ≠ .ready) (gnss : Gnss.Engine)
    (machine : String) : ofPlatform st ⟨s, gnss, machine⟩ = ofPlatform st' ⟨s', gnss, machine⟩ := by
  have hready' : s'.state ≠ .ready := by rwa [← Sim.state_eq_of_concealed hs]
  have habsent {s : Sim} (st : Store) (h : s.state ≠ .ready) :
      (ofPlatform st ⟨s, gnss, machine⟩).withImsi none = ofPlatform st ⟨s, gnss, machine⟩ := by
    have hread : s.readImsi = .error .notPossible := Sim.require_ready_bind h _
    rw [ofPlatform, CardReport.ofSim, hread]
    rfl
  rw [← habsent st hready, ← habsent st' hready']
  exact withImsi_ofPlatform hst hs gnss machine none

end Alike

theorem ofPlatform_of_ready {s : Sim} (h : s.state = .ready) (st : Store) (gnss : Gnss.Engine)
    (machine : String) :
    ofPlatform st ⟨s, gnss, machine⟩ =
      (ofPlatform st ⟨s, gnss, machine⟩).withImsi (some s.subscriber.imsi) := by
  have hread : s.readImsi = .ok s.subscriber.imsi := by
    rw [Sim.readImsi, Sim.require, if_pos (List.mem_singleton.mpr h)]
    rfl
  rw [ofPlatform, CardReport.ofSim, hread]
  rfl

theorem subscriber_concealed_unless_ready {s s' : Sim} (hs : s.concealed = s'.concealed)
    (ops : List Sim.Operation) :
    let t := s.afterAll ops
    let t' := s'.afterAll ops
    t.concealed = t'.concealed ∧
      (∀ op, (t.perform op).card.concealed = (t'.perform op).card.concealed ∧
        (t.perform op).notices = (t'.perform op).notices ∧
        (¬(t.state = .ready ∧ op.readsSubscriber = true) →
          (t.perform op).answer = (t'.perform op).answer)) ∧
      ∀ st st' gnss machine, AgreeElsewhere st st' →
        let r := ofPlatform st ⟨t, gnss, machine⟩
        let r' := ofPlatform st' ⟨t', gnss, machine⟩
        (t.state ≠ .ready → r.text = r'.text ∧ r.json = r'.json) ∧
        (t.state = .ready → r.withImsi none = r'.withImsi none ∧
          (∃ before after, r.text = before ++ t.subscriber.imsi ++ after ∧
            r'.text = before ++ t'.subscriber.imsi ++ after) ∧
          ∃ before after, r.json = before ++ quoted t.subscriber.imsi ++ after ∧
            r'.json = before ++ quoted t'.subscriber.imsi ++ after) := by
  intro t t'
  have ht : t.concealed = t'.concealed := Sim.afterAll_concealed hs ops
  have hstate : t.state = t'.state := Sim.state_eq_of_concealed ht
  refine ⟨ht, fun op => ⟨(Sim.perform_concealed ht op).1, (Sim.perform_concealed ht op).2, ?_⟩, ?_⟩
  · intro hunless
    have halike : (t.perform op).Alike (t'.perform op) :=
      Sim.perform_alike ht fun hreads hready => hunless ⟨hstate.trans hready, hreads⟩
    exact halike.answer
  · intro st st' gnss machine hst r r'
    constructor
    · intro hready
      have hr : r = r' := ofPlatform_of_not_ready hst ht hready gnss machine
      rw [hr]
      exact ⟨rfl, rfl⟩
    · intro hready
      have hshared (imsi : Option String) : r.withImsi imsi = r'.withImsi imsi :=
        withImsi_ofPlatform hst ht gnss machine imsi
      have hr : r = r.withImsi (some t.subscriber.imsi) := ofPlatform_of_ready hready st gnss machine
      have hr' : r' = r.withImsi (some t'.subscriber.imsi) := by
        rw [hshared]
        exact ofPlatform_of_ready (hstate.symm.trans hready) st' gnss machine
      refine ⟨hshared none, ?_, ?_⟩
      · obtain ⟨before, after, htext⟩ := r.exists_text_around
        refine ⟨before, after, ?_, ?_⟩
        · rw [hr]
          exact htext _
        · rw [hr']
          exact htext _
      · obtain ⟨before, after, hjson⟩ := r.exists_json_around
        refine ⟨before, after, ?_, ?_⟩
        · rw [hr]
          exact hjson _
        · rw [hr']
          exact hjson _

/-- Two cards with two subscribers are unlocked; before that their reports do not differ. -/
theorem subscriber_concealed_unless_ready_unlocked :
    let s : Sim := { state := .inserted, codes := ⟨"1234", "87654321"⟩ }
    let s' := s.withSubscriber ⟨"001010123456789", "+4915", some "Operator", "01", "002"⟩
    let st := ({} : Store).set (modemLeaf "sim/imsi") (.string "001010123456789")
    let ops : List Sim.Operation := [.request .imsi, .request (.enterPin .pin "1234")]
    let t := s.afterAll ops
    let t' := s'.afterAll ops
    s.concealed = s'.concealed ∧ AgreeElsewhere {} st ∧
      (s.request .imsi).answer = (s'.request .imsi).answer ∧
      (ofPlatform {} ⟨s, {}, "x86"⟩).json = (ofPlatform st ⟨s', {}, "x86"⟩).json ∧
      (t.request .state).answer = (t'.request .state).answer ∧
      (t.request .imsi).answer = .ok (.text "") ∧
      (t'.request .imsi).answer = .ok (.text "001010123456789") := by
  intro s s' st ops t t'
  have hs : s.concealed = s'.concealed := rfl
  have hst : AgreeElsewhere {} st := by
    intro path hpath
    have hne : canonical (modemLeaf "sim/imsi") ≠ canonical path := by
      intro heq
      rw [← heq] at hpath
      exact hpath (by decide)
    rw [Store.get?_set, if_neg hne]
  obtain ⟨-, hlocked, hreports⟩ := subscriber_concealed_unless_ready hs []
  obtain ⟨-, hunlocked, -⟩ := subscriber_concealed_unless_ready hs ops
  have himsi := (hlocked (.request .imsi)).2.2 (by decide)
  have hstate := (hunlocked (.request .state)).2.2 (by decide)
  obtain ⟨-, hjson⟩ := (hreports {} st {} "x86" hst).1 (by decide)
  exact ⟨hs, hst, himsi, hjson, hstate, rfl, rfl⟩

end Report

end VirtualModem
