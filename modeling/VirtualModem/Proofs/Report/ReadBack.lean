import VirtualModem.Report
import VirtualModem.Proofs.Config.Records
import VirtualModem.Proofs.Platform.Reachable
import VirtualModem.Proofs.Sim.Limits
/-!
# Reading a report back

The JSON form of a report is itself a document that loads. Its leaves are what the modem can read,
each under the names that the report gives it, and nothing is left of what cannot be read. So the
JSON form determines the report.
-/

namespace VirtualModem
set_option autoImplicit false
open Json Config

def optional (keys : List String) (x : Option Scalar) : List (List String × Scalar) :=
  (x.map (keys, ·)).toList

theorem map_optional (key : String) (keys : List String) (x : Option Scalar) :
    ((optional keys x).map fun y => (key :: y.1, y.2)) = optional (key :: keys) x := by
  cases x <;> rfl

theorem scalars_ofOption {α : Type} {f : α → Tree} {g : α → Scalar}
    (h : ∀ a, (f a).scalars = [([], g a)]) (o : Option α) :
    (Tree.ofOption f o).scalars = optional [] (o.map g) := by
  cases o with
  | none => rfl
  | some a => exact h a

namespace Report

/-- What a position tells, by the names that lead to it. -/
def positionFields : List (List String × (Gnss.Position → Int)) := [
  (["latitude"], fun p => p.latitude.toInt),
  (["longitude"], fun p => p.longitude.toInt),
  (["altitude"], fun p => p.altitude.toInt),
  (["h_speed"], fun p => p.horizontalSpeed.toNat),
  (["dimension"], fun p => p.dimension.toNat),
  (["hdop"], fun p => p.hdop.toNat),
  (["vdop"], fun p => p.vdop.toNat),
  (["time", "hours"], fun p => p.time.hours.toNat),
  (["time", "minutes"], fun p => p.time.minutes.toNat),
  (["time", "seconds"], fun p => p.time.seconds.toNat),
  (["time", "milliseconds"], fun p => p.time.milliseconds.toNat),
  (["time", "year"], fun p => p.time.year.toNat),
  (["time", "month"], fun p => p.time.month.toNat),
  (["time", "day"], fun p => p.time.day.toNat)]

/-- What a report holds, by the names that lead to it. -/
def fields (r : Report) : List (List String × Option Scalar) := [
  (["imei"], r.imei.map .text),
  (["firmware_version"], r.firmware.map .text),
  (["bootloader_version"], r.bootloader.map .text),
  (["device_model"], r.model.map .text),
  (["sim", "card"], r.card.slot.map fun x => .text (Named.name x)),
  (["sim", "state"], r.card.state.map fun x => .text (Named.name x)),
  (["sim", "pin_remaining_attempts"], r.card.pinAttempts.map fun n => .integer n),
  (["sim", "puk_remaining_attempts"], r.card.pukAttempts.map fun n => .integer n),
  (["sim", "iccid"], r.card.iccid.map .text),
  (["sim", "imsi"], r.card.imsi.map .text)] ++
  positionFields.map fun f => ("gnss_fix" :: f.1, r.fix.map fun p => .integer (f.2 p))

theorem scalars_position (p : Gnss.Position) :
    (Form.toTree p).scalars = positionFields.map fun f => (f.1, .integer (f.2 p)) := by
  have h8 (n : UInt8) : (Form.toTree n).scalars = [([], .integer n.toNat)] := Tree.scalars_ofInt _
  have h16 (n : UInt16) : (Form.toTree n).scalars = [([], .integer n.toNat)] :=
    Tree.scalars_ofInt _
  have h32 (n : UInt32) : (Form.toTree n).scalars = [([], .integer n.toNat)] :=
    Tree.scalars_ofInt _
  have hsigned (n : Int32) : (Form.toTree n).scalars = [([], .integer n.toInt)] :=
    Tree.scalars_ofInt _
  have htime : (Form.toTree p.time).scalars = [
      (["hours"], .integer p.time.hours.toNat), (["minutes"], .integer p.time.minutes.toNat),
      (["seconds"], .integer p.time.seconds.toNat),
      (["milliseconds"], .integer p.time.milliseconds.toNat),
      (["year"], .integer p.time.year.toNat), (["month"], .integer p.time.month.toNat),
      (["day"], .integer p.time.day.toNat)] := by
    refine (Tree.scalars_ofFields _).trans ?_
    simp only [List.flatMap_cons, h16]
    rfl
  refine (Tree.scalars_ofFields _).trans ?_
  simp only [List.flatMap_cons, h8, h16, h32, hsigned, htime]
  rfl

theorem scalars_toTree (r : Report) :
    r.toTree.scalars = r.fields.flatMap fun f => optional f.1 f.2 := by
  have htext (o : Option String) :
      (Tree.ofOption .ofString o).scalars = optional [] (o.map .text) :=
    scalars_ofOption Tree.scalars_ofString o
  have hnumber (o : Option Nat) :
      (Tree.ofOption (fun n => .ofInt n) o).scalars =
        optional [] (o.map fun n : Nat => .integer n) := by
    cases o with
    | none => rfl
    | some n => exact Tree.scalars_ofInt n
  have hslot : (Tree.ofOption Form.toTree r.card.slot).scalars =
      optional [] (r.card.slot.map fun x => .text (Named.name x)) :=
    scalars_ofOption (fun x => Tree.scalars_ofString _) _
  have hstate : (Tree.ofOption Form.toTree r.card.state).scalars =
      optional [] (r.card.state.map fun x => .text (Named.name x)) :=
    scalars_ofOption (fun x => Tree.scalars_ofString _) _
  have hfix : ((Tree.ofOption Form.toTree r.fix).scalars.map fun x => ("gnss_fix" :: x.1, x.2)) =
      (positionFields.map fun f => ("gnss_fix" :: f.1, r.fix.map fun p => .integer (f.2 p))).flatMap
        fun f => optional f.1 f.2 := by
    cases r.fix with
    | none => rfl
    | some p =>
      rw [Tree.ofOption, scalars_position]
      rfl
  rw [toTree, Tree.scalars_ofFields, fields, List.flatMap_append, ← hfix]
  simp only [CardReport.toTree, Tree.scalars_ofFields, List.flatMap_cons, List.flatMap_nil, htext,
    hnumber, hslot, hstate, map_optional, List.map_append, List.append_assoc, List.append_nil]

theorem fits_position (p : Gnss.Position) : (Form.toTree p).Fits 2 := by
  have h8 (levels : Nat) (n : UInt8) : (Form.toTree n).Fits levels :=
    Tree.fits_ofNat levels (Nat.lt_trans n.toNat_lt_size (by decide))
  have h16 (levels : Nat) (n : UInt16) : (Form.toTree n).Fits levels :=
    Tree.fits_ofNat levels (Nat.lt_trans n.toNat_lt_size (by decide))
  have h32 (levels : Nat) (n : UInt32) : (Form.toTree n).Fits levels :=
    Tree.fits_ofNat levels n.toNat_lt_size
  have hsigned (levels : Nat) (n : Int32) : (Form.toTree n).Fits levels :=
    Tree.fits_ofInt levels
      ⟨Int.le_trans (by decide) n.minValue_le_toInt, Int.le_trans n.toInt_le (by decide)⟩
  have htime : (Form.toTree p.time).Fits 1 := by
    refine Tree.fits_ofFields
      ["hours", "minutes", "seconds", "milliseconds", "year", "month", "day"] rfl (by decide) ?_
    simp only [List.forall_mem_cons, h16, true_and]
    exact nofun
  refine Tree.fits_ofFields
    ["latitude", "longitude", "altitude", "h_speed", "dimension", "hdop", "vdop", "time"] rfl
    (by decide) ?_
  simp only [List.forall_mem_cons, h8, h16, h32, hsigned, htime, true_and]
  exact nofun

theorem fits_card {c : CardReport} (hpin : ∀ n ∈ c.pinAttempts, n < UInt32.size)
    (hpuk : ∀ n ∈ c.pukAttempts, n < UInt32.size) : c.toTree.Fits 1 := by
  have htext (o : Option String) : (Tree.ofOption .ofString o).Fits 0 :=
    Tree.fits_ofOption fun s _ => Tree.fits_ofString 0 s
  have hnumber {o : Option Nat} (h : ∀ n ∈ o, n < UInt32.size) :
      (Tree.ofOption (fun n => .ofInt n) o).Fits 0 := by
    cases o with
    | none => exact Tree.fits_ofOption nofun
    | some n => exact Tree.fits_ofNat 0 (h n rfl)
  have hslot : (Tree.ofOption Form.toTree c.slot).Fits 0 :=
    Tree.fits_ofOption fun x _ => Tree.fits_ofString 0 _
  have hstate : (Tree.ofOption Form.toTree c.state).Fits 0 :=
    Tree.fits_ofOption fun x _ => Tree.fits_ofString 0 _
  refine Tree.fits_ofFields
    ["card", "state", "pin_remaining_attempts", "puk_remaining_attempts", "iccid", "imsi"] rfl
    (by decide) ?_
  simp only [List.forall_mem_cons, htext, hnumber hpin, hnumber hpuk, hslot, hstate, true_and]
  exact nofun

theorem fits_toTree {r : Report} (hpin : ∀ n ∈ r.card.pinAttempts, n < UInt32.size)
    (hpuk : ∀ n ∈ r.card.pukAttempts, n < UInt32.size) : r.toTree.Fits 3 := by
  have htext (o : Option String) : (Tree.ofOption .ofString o).Fits 2 :=
    Tree.fits_ofOption fun s _ => Tree.fits_ofString 2 s
  have hcard : r.card.toTree.Fits 2 := (fits_card hpin hpuk).mono (by decide)
  have hfix : (Tree.ofOption Form.toTree r.fix).Fits 2 :=
    Tree.fits_ofOption fun p _ => fits_position p
  refine Tree.fits_ofFields
    ["imei", "firmware_version", "bootloader_version", "device_model", "sim", "gnss_fix"] rfl
    (by decide) ?_
  simp only [List.forall_mem_cons, htext, hcard, hfix, true_and]
  exact nofun

theorem mem_flatMap_optional {fs : List (List String × Option Scalar)} {keys : List String}
    {x : Scalar} : ((keys, x) ∈ fs.flatMap fun f => optional f.1 f.2) ↔ (keys, some x) ∈ fs := by
  rw [List.mem_flatMap]
  constructor
  · rintro ⟨⟨keys', o⟩, hf, hx⟩
    rw [optional, Option.mem_toList, Option.map_eq_some_iff] at hx
    obtain ⟨y, rfl, hy⟩ := hx
    obtain ⟨rfl, rfl⟩ := Prod.mk.inj hy
    exact hf
  · intro hf
    exact ⟨_, hf, List.mem_singleton_self _⟩

/-- Under different names it is plain to whom a scalar belongs, and who has none. -/
theorem eq_of_flatMap_optional {fs gs : List (List String × Option Scalar)}
    (hkeys : fs.map (·.1) = gs.map (·.1)) (hdistinct : (fs.map (·.1)).Nodup)
    (h : (fs.flatMap fun f => optional f.1 f.2) = gs.flatMap fun g => optional g.1 g.2) :
    fs = gs := by
  induction fs generalizing gs with
  | nil => exact (List.map_eq_nil_iff.mp hkeys.symm).symm
  | cons f fs ih =>
    obtain ⟨keys, x⟩ := f
    cases gs with
    | nil => cases hkeys
    | cons g gs =>
      obtain ⟨keys', y⟩ := g
      obtain ⟨rfl, hrest⟩ := List.cons.inj hkeys
      obtain ⟨hnot, hdistinct'⟩ := List.nodup_cons.mp hdistinct
      have hother {hs : List (List String × Option Scalar)} (hmap : hs.map (·.1) = fs.map (·.1))
          (z : Scalar) : (keys, z) ∉ hs.flatMap fun f => optional f.1 f.2 := by
        rw [mem_flatMap_optional]
        intro hmem
        have hkey : keys ∈ hs.map (·.1) := List.mem_map_of_mem hmem
        rw [hmap] at hkey
        exact hnot hkey
      rw [List.flatMap_cons, List.flatMap_cons] at h
      cases x with
      | none =>
        cases y with
        | none => rw [ih hrest hdistinct' h]
        | some b =>
          have hhead : (fs.flatMap fun f => optional f.1 f.2) = (keys, b) :: _ := h
          refine absurd ?_ (hother rfl b)
          rw [hhead]
          exact List.mem_cons_self
      | some a =>
        cases y with
        | none =>
          have hhead : (gs.flatMap fun f => optional f.1 f.2) = (keys, a) :: _ := h.symm
          refine absurd ?_ (hother hrest.symm a)
          rw [hhead]
          exact List.mem_cons_self
        | some b =>
          obtain ⟨hhead, htail⟩ := List.cons.inj h
          rw [(Prod.mk.inj hhead).2, ih hrest hdistinct' htail]

theorem position_eq {p p' : Gnss.Position} (h : ∀ f ∈ positionFields, f.2 p = f.2 p') :
    p = p' := by
  simp only [positionFields, List.forall_mem_cons, Int32.toInt_inj, Int.ofNat_inj,
    UInt32.toNat_inj, UInt16.toNat_inj, UInt8.toNat_inj] at h
  obtain ⟨hlatitude, hlongitude, haltitude, hspeed, hdimension, hhdop, hvdop, hhours, hminutes,
    hseconds, hmilliseconds, hyear, hmonth, hday, -⟩ := h
  obtain ⟨_, _, _, _, _, _, _, ⟨_, _, _, _, _, _, _⟩⟩ := p
  obtain ⟨_, _, _, _, _, _, _, ⟨_, _, _, _, _, _, _⟩⟩ := p'
  rw [Gnss.Position.mk.injEq, Gnss.Time.mk.injEq]
  exact ⟨hlatitude, hlongitude, haltitude, hspeed, hdimension, hhdop, hvdop, hhours, hminutes,
    hseconds, hmilliseconds, hyear, hmonth, hday⟩

theorem fix_eq {fix fix' : Option Gnss.Position}
    (h : ∀ f ∈ positionFields,
      (fix.map fun p => Scalar.integer (f.2 p)) = fix'.map fun p => .integer (f.2 p)) :
    fix = fix' := by
  have hlatitude := h _ List.mem_cons_self
  cases fix with
  | none =>
    cases fix' with
    | none => rfl
    | some p' => cases hlatitude
  | some p =>
    cases fix' with
    | none => cases hlatitude
    | some p' =>
      refine congrArg some (position_eq fun f hf => ?_)
      exact Scalar.integer.inj (Option.some.inj (h f hf))

theorem fields_injective {r r' : Report} (h : r.fields = r'.fields) : r = r' := by
  have htext {o o' : Option String} (h : o.map Scalar.text = o'.map .text) : o = o' :=
    Option.map_injective (fun _ _ => Scalar.text.inj) h
  have hnumber {o o' : Option Nat}
      (h : (o.map fun n : Nat => Scalar.integer n) = o'.map fun n : Nat => .integer n) : o = o' :=
    Option.map_injective (fun _ _ hn => Int.ofNat.inj (Scalar.integer.inj hn)) h
  have hname {α : Type} [Named α] (hback : ∀ x : α, Named.ofName? (Named.name x) = some x)
      {o o' : Option α}
      (h : (o.map fun x => Scalar.text (Named.name x)) = o'.map fun x => .text (Named.name x)) :
      o = o' := by
    refine Option.map_injective (fun x y hxy => ?_) h
    exact Option.some.inj ((hback x).symm.trans
      ((congrArg Named.ofName? (Scalar.text.inj hxy)).trans (hback y)))
  obtain ⟨hscalars, hposition⟩ := List.append_inj h rfl
  simp only [List.cons.injEq, Prod.mk.injEq, true_and, and_true] at hscalars
  obtain ⟨himei, hfirmware, hbootloader, hmodel, hslot, hstate, hpin, hpuk, hiccid, himsi⟩ :=
    hscalars
  rw [List.map_inj_left] at hposition
  have hfix : r.fix = r'.fix := fix_eq fun f hf => (Prod.mk.inj (hposition f hf)).2
  obtain ⟨_, _, _, _, ⟨_, _, _, _, _, _⟩, _⟩ := r
  obtain ⟨_, _, _, _, ⟨_, _, _, _, _, _⟩, _⟩ := r'
  rw [Report.mk.injEq, CardReport.mk.injEq]
  exact ⟨htext himei, htext hfirmware, htext hbootloader, htext hmodel,
    ⟨hname (fun x => by cases x <;> rfl) hslot, hname (fun x => by cases x <;> rfl) hstate,
      hnumber hpin, hnumber hpuk, htext hiccid, htext himsi⟩, hfix⟩

/-- A report of which nothing can be read. It has the names that any report has. -/
def unreadable : Report :=
  ⟨none, none, none, none, ⟨none, none, none, none, none, none⟩, none⟩

theorem map_fst_fields (r : Report) : r.fields.map (·.1) = unreadable.fields.map (·.1) := rfl

theorem nodup_map_fst_fields (r : Report) : (r.fields.map (·.1)).Nodup := by
  rw [map_fst_fields]
  decide

theorem plainKeys_of_mem_fields {r : Report} {f : List String × Option Scalar}
    (h : f ∈ r.fields) : f.1 ≠ [] ∧ ∀ key ∈ f.1, PlainKey key := by
  have hname : f.1 ∈ r.fields.map (·.1) := List.mem_map_of_mem h
  have hall : ∀ keys ∈ unreadable.fields.map (·.1),
      keys ≠ [] ∧ ∀ key ∈ keys, PlainKey key := by decide
  rw [map_fst_fields] at hname
  exact hall f.1 hname

theorem scalars_injective {r r' : Report} (h : r.toTree.scalars = r'.toTree.scalars) : r = r' := by
  rw [scalars_toTree, scalars_toTree] at h
  exact fields_injective (eq_of_flatMap_optional rfl r.nodup_map_fst_fields h)

/-- What an answer of the card says, if it says one thing. -/
def cardReading (s : Sim) (q : Sim.Request) : Option Scalar :=
  match (s.request q).answer with
  | .ok (.slot x) => some (.text (Named.name x))
  | .ok (.state x) => some (.text (Named.name x))
  | .ok (.number n) => some (.integer n)
  | .ok (.text t) => some (.text t)
  | _ => none

def infoReading (st : Store) (machine : String) (q : Info.Query) : Option Scalar :=
  match Info.answer machine st q with
  | .ok t => some (.text t)
  | .error _ => none

/-- A number of the position that the engine hands out. -/
def fixReading (g : Gnss.Engine) (number : Gnss.Position → Int) : Option Scalar :=
  match (g.perform .lastPosition).answer with
  | .ok (.position p) => some (.integer (number p))
  | _ => none

/-- The paths of a report, and what the modem can read of each. -/
def readings (st : Store) (p : Platform) : List (String × Option Scalar) := [
  ("/imei", infoReading st p.machine .imei),
  ("/firmware_version", infoReading st p.machine .firmware),
  ("/bootloader_version", infoReading st p.machine .bootloader),
  ("/device_model", infoReading st p.machine .model),
  ("/sim/card", cardReading p.sim .selectedCard),
  ("/sim/state", cardReading p.sim .state),
  ("/sim/pin_remaining_attempts", cardReading p.sim (.pinAttempts .pin)),
  ("/sim/puk_remaining_attempts", cardReading p.sim (.pukAttempts .puk)),
  ("/sim/iccid", cardReading p.sim .iccid),
  ("/sim/imsi", cardReading p.sim .imsi),
  ("/gnss_fix/latitude", fixReading p.gnss fun x => x.latitude.toInt),
  ("/gnss_fix/longitude", fixReading p.gnss fun x => x.longitude.toInt),
  ("/gnss_fix/altitude", fixReading p.gnss fun x => x.altitude.toInt),
  ("/gnss_fix/h_speed", fixReading p.gnss fun x => x.horizontalSpeed.toNat),
  ("/gnss_fix/dimension", fixReading p.gnss fun x => x.dimension.toNat),
  ("/gnss_fix/hdop", fixReading p.gnss fun x => x.hdop.toNat),
  ("/gnss_fix/vdop", fixReading p.gnss fun x => x.vdop.toNat),
  ("/gnss_fix/time/hours", fixReading p.gnss fun x => x.time.hours.toNat),
  ("/gnss_fix/time/minutes", fixReading p.gnss fun x => x.time.minutes.toNat),
  ("/gnss_fix/time/seconds", fixReading p.gnss fun x => x.time.seconds.toNat),
  ("/gnss_fix/time/milliseconds", fixReading p.gnss fun x => x.time.milliseconds.toNat),
  ("/gnss_fix/time/year", fixReading p.gnss fun x => x.time.year.toNat),
  ("/gnss_fix/time/month", fixReading p.gnss fun x => x.time.month.toNat),
  ("/gnss_fix/time/day", fixReading p.gnss fun x => x.time.day.toNat)]

theorem readings_eq (st : Store) (p : Platform) :
    readings st p = (ofPlatform st p).fields.map fun f => (joined f.1, f.2) := by
  have hinfo {q : Info.Query} {result : Except AdapterError String}
      (h : Info.answer p.machine st q = result) :
      infoReading st p.machine q = result.toOption.map .text := by
    rw [infoReading, h]
    cases result <;> rfl
  have hfix (number : Gnss.Position → Int) : fixReading p.gnss number =
      p.gnss.lastPosition.toOption.map fun x => .integer (number x) := by
    rw [fixReading, Gnss.Engine.perform]
    cases p.gnss.lastPosition <;> rfl
  have hpin : cardReading p.sim (.pinAttempts .pin) =
      p.sim.pinAttempts.toOption.map fun n : Nat => .integer n := by
    rw [cardReading, Sim.request]
    cases p.sim.pinAttempts <;> rfl
  have hpuk : cardReading p.sim (.pukAttempts .puk) =
      p.sim.pukAttempts.toOption.map fun n : Nat => .integer n := by
    rw [cardReading, Sim.request]
    cases p.sim.pukAttempts <;> rfl
  have hiccid : cardReading p.sim .iccid = p.sim.readIccid.toOption.map .text := by
    rw [cardReading, Sim.request]
    cases p.sim.readIccid <;> rfl
  have himsi : cardReading p.sim .imsi = p.sim.readImsi.toOption.map .text := by
    rw [cardReading, Sim.request]
    cases p.sim.readImsi <;> rfl
  simp only [readings, hinfo rfl, hfix, hpin, hpuk, hiccid, himsi]
  rfl

theorem mem_readings_iff {st : Store} {p : Platform} {path : String} {x : Scalar} :
    (path, some x) ∈ readings st p ↔
      ∃ keys, (keys, x) ∈ (ofPlatform st p).toTree.scalars ∧ joined keys = path := by
  rw [readings_eq, List.mem_map, scalars_toTree]
  constructor
  · rintro ⟨⟨keys, o⟩, hf, hpath⟩
    obtain ⟨rfl, rfl⟩ := Prod.mk.inj hpath
    exact ⟨keys, mem_flatMap_optional.mpr hf, rfl⟩
  · rintro ⟨keys, hmem, rfl⟩
    exact ⟨(keys, some x), mem_flatMap_optional.mp hmem, rfl⟩

theorem canonical_of_mem_readings {st : Store} {p : Platform} {path : String} {x : Option Scalar}
    (h : (path, x) ∈ readings st p) : canonical path = path := by
  rw [readings_eq, List.mem_map] at h
  obtain ⟨f, hf, hpath⟩ := h
  obtain ⟨hne, hplain⟩ := plainKeys_of_mem_fields hf
  rw [← (Prod.mk.inj hpath).1]
  exact canonical_joined hne hplain

theorem fits_ofPlatform {st : Store} {p : Platform} (h : Platform.Reachable st p) :
    (ofPlatform st p).toTree.Fits 3 := by
  have hlimits := h.card.withinLimits
  have hpin := hlimits.pinAttempts_le
  have hpuk := hlimits.pukAttempts_le
  have hread {s : Sim} {k n : Nat} (hn : (do s.requireSettled; return k).toOption = some n) :
      n = k := by
    cases hs : s.requireSettled with
    | error e =>
      rw [hs] at hn
      cases hn
    | ok =>
      rw [hs] at hn
      cases hn
      rfl
  have hsize : UInt32.size = 2 ^ 32 := rfl
  refine fits_toTree (fun n hn => ?_) (fun n hn => ?_)
  · have hn' : n = p.sim.attempts.pin := hread hn
    omega
  · have hn' : n = p.sim.attempts.puk - 1 := hread hn
    omega

theorem json_read_back_losslessly {st : Store} {p : Platform} (h : Platform.Reachable st p) :
    (∃ read, Store.ofString (ofPlatform st p).json = .ok read ∧
      (∀ path leaf, (path, leaf) ∈ read.entries ↔
        ∃ x, (path, some x) ∈ readings st p ∧ Shows x leaf) ∧
      ∀ path leaf, read.get? path = some leaf ↔
        ∃ x, (canonical path, some x) ∈ readings st p ∧ Shows x leaf) ∧
      ∀ st' p', Platform.Reachable st' p' →
        (ofPlatform st' p').json = (ofPlatform st p).json → ofPlatform st' p' = ofPlatform st p := by
  have hfits := fits_ofPlatform h
  constructor
  · obtain ⟨read, hread, hget⟩ :=
      Store.exists_ofString_toPrettyString (hfits.mono (by decide : 3 ≤ Value.depthLimit))
    have hleaf (path : String) (leaf : Leaf) : read.get? path = some leaf ↔
        ∃ x, (canonical path, some x) ∈ readings st p ∧ Shows x leaf := by
      rw [hget]
      constructor
      · rintro ⟨⟨keys, x⟩, hx, hpath, hshows⟩
        exact ⟨x, mem_readings_iff.mpr ⟨keys, hx, hpath⟩, hshows⟩
      · rintro ⟨x, hx, hshows⟩
        obtain ⟨keys, hkeys, hpath⟩ := mem_readings_iff.mp hx
        exact ⟨(keys, x), hkeys, hpath, hshows⟩
    obtain ⟨ops, hops⟩ := Store.exists_afterAll_of_ofString hread
    have hkeyed : read.Keyed := by
      rw [hops]
      exact Store.keyed_empty.afterAll ops
    refine ⟨read, hread, fun path leaf => ?_, hleaf⟩
    rw [Store.mem_entries_iff hkeyed, hleaf]
    constructor
    · rintro ⟨hpath, hx⟩
      rwa [hpath] at hx
    · rintro ⟨x, hx, hshows⟩
      have hpath := canonical_of_mem_readings hx
      rw [hpath]
      exact ⟨rfl, x, hx, hshows⟩
  · intro st' p' h' hjson
    have htree : some (ofPlatform st' p').toTree = some (ofPlatform st p).toTree := by
      rw [← (fits_ofPlatform h').1.plain.ofString?_toPrettyString,
        ← hfits.1.plain.ofString?_toPrettyString]
      exact congrArg Tree.ofString? hjson
    exact scalars_injective (congrArg Tree.scalars (Option.some.inj htree))

/-- The IMEI needs escapes, the latitude is negative, and the card does not tell its IMSI. -/
theorem json_read_back_losslessly_escaped :
    let st := (Platform.activated {}).set (modemLeaf "info/imei") (.string "\"\\\n\x01é")
    let p : Platform :=
      { sim := { state := .inserted }, gnss := { fix := some { latitude := -1 } }, machine := "arm" }
    Platform.Reachable st p ∧ ∃ read, Store.ofString (ofPlatform st p).json = .ok read ∧
      read.get? "imei/" = some (.string "\"\\\n\x01é") ∧
      read.get? "/gnss_fix/latitude" = some (.int (-1)) ∧
      read.get? "/sim/pin_remaining_attempts" = some (.int 3) ∧
      read.get? "/sim/imsi" = none := by
  intro st p
  have hreach : Platform.Reachable st p :=
    (((Platform.reachable_fresh "arm").sim (.control (.reportState .inserted))).gnss
      (.reportPosition { latitude := -1 })).store (.set (modemLeaf "info/imei") _)
  obtain ⟨⟨read, hread, -, hget⟩, -⟩ := json_read_back_losslessly hreach
  refine ⟨hreach, read, hread, ?_, ?_, ?_, ?_⟩
  · rw [hget]
    exact ⟨_, List.mem_cons_self, .text _⟩
  · rw [hget]
    exact ⟨.integer (-1), by decide, .integer (-1)⟩
  · rw [hget]
    exact ⟨.integer 3, by decide, .integer 3⟩
  · have hhidden : ∀ x ∈ readings st p, x.1 = "/sim/imsi" → x.2 = none := by decide
    rw [Option.eq_none_iff_forall_ne_some]
    intro leaf hleaf
    obtain ⟨x, hx, -⟩ := (hget _ _).mp hleaf
    cases hhidden _ hx rfl

end Report

end VirtualModem
