import FrameRelay.Proofs.Numerals
import FrameRelay.Proofs.Opening
import FrameRelay.Proofs.Quotients
import FrameRelay.Proofs.Singles
import FrameRelay.Proofs.Windows

/-! A request is checked twice, before the processor is created and as it is created. Both checks
refuse the same requests for the same reason. Options that are valid leave nothing else to refuse:
every stage fills in the parameters that its kernel is built from, and the spacing of a retiming is
a finite positive number in single precision too. -/

namespace FrameRelay
open Number

/-! The spacing. -/

theorem of_checkRange {name : String} {value low high : Float}
    (passed : checkRange name value low high = .ok ()) :
    value.isFinite = true ∧ ¬ value < low ∧ ¬ high < value := by
  unfold checkRange at passed
  split at passed
  · cases passed
  · simp_all

theorem InterpolationOptions.slowmo_of_validate {o : InterpolationOptions}
    (valid : o.validate = .ok ()) : checkRange "slowmo" o.slowmo 0.1 16.0 = .ok () := by
  obtain ⟨-, -, valid⟩ := ok_of_bind valid
  obtain ⟨-, -, valid⟩ := ok_of_bind valid
  obtain ⟨-, -, valid⟩ := ok_of_bind valid
  obtain ⟨⟨⟩, slowmo, -⟩ := ok_of_bind valid
  exact slowmo

theorem InterpolationOptions.between_slowmo {o : InterpolationOptions}
    (valid : o.validate = .ok ()) : Between (-4) 4 o.slowmo := by
  obtain ⟨finite, above, below⟩ := of_checkRange (slowmo_of_validate valid)
  have low : Holds 0.1 (7205759403792794 * 2 ^ (-56 : ℤ)) := by
    have parts : Parts.ofDouble 0.1 = .finite false 7205759403792794 (-56) := by decide +kernel
    exact_mod_cast Holds.of_parts parts ⟨by norm_num, by norm_num, .inl (by norm_num)⟩ (by norm_num)
  have high : Holds 16.0 (2 ^ (4 : ℤ)) :=
    .of_power (-48) (by decide +kernel) (by norm_num) (by norm_num)
  obtain ⟨value, holds, least⟩ := Holds.of_not_lt finite low (by positivity) above
  refine ⟨value, holds, le_trans ?_ least, ?_⟩
  · norm_num
  · rwa [high.lt_iff holds, not_lt] at below

theorem between_ofInt {x : Int} (positive : 0 < x) (inside : InWord x) :
    Between 0 63 (Float.ofInt x) := by
  obtain ⟨n, rfl⟩ := Int.eq_ofNat_of_zero_le positive.le
  have bounds : 0 < n ∧ n ≤ 2 ^ 63 := by
    simp only [InWord, maxWord] at inside
    omega
  exact .ofNat bounds.1 bounds.2

theorem Ratio.between_toFloat {r : Ratio} (num : 0 < r.num) (den : 0 < r.den) (words : r.InWords) :
    Between (-63) 63 r.toFloat := by
  rw [toFloat, if_neg den.ne']
  exact (between_ofInt num words.num).div (between_ofInt den words.den) (by norm_num) (by norm_num)

theorem between_one : Between 0 0 1.0 :=
  ⟨1, .of_power (-52) (by decide +kernel) (by norm_num) (by norm_num), by norm_num, by norm_num⟩

theorem Ratio.specified {r : Ratio} (specified : r.isSpecified = true) : 0 < r.num ∧ 0 < r.den := by
  simpa [isSpecified] using specified

theorem Ratio.num_pos_of_div? {a b r : Ratio} (first : a.isSpecified = true)
    (second : b.isSpecified = true) (found : a.div? b = some r) : 0 < r.num := by
  obtain ⟨num, den⟩ := specified first
  obtain ⟨num', den'⟩ := specified second
  obtain ⟨lowest, -, cross⟩ := reduces_of_div? found
  have right : 0 < (a.crossed b).num * r.den := mul_pos (mul_pos num den') lowest.positive
  have left : 0 < (a.crossed b).den := mul_pos den num'
  rw [← cross] at right
  exact pos_of_mul_pos_left right left.le

namespace Retiming

theorem between_factor {slowmo : Float} {target rate : Ratio} {factor : Float} {frameRate : Ratio}
    (bounds : Between (-4) 4 slowmo) (usable : rate.isSpecified = true)
    (found : factor? slowmo target rate = .ok (factor, frameRate)) : Between (-67) 67 factor := by
  unfold factor? at found
  split at found
  case isTrue wanted =>
    cases quotient : target.div? rate with
    | none => simp [quotient] at found
    | some ratio =>
      simp only [quotient] at found
      obtain ⟨rfl, rfl⟩ := Prod.mk.inj (Except.ok.inj found)
      have reduces := Ratio.reduces_of_div? quotient
      have ratio_bounds := Ratio.between_toFloat (Ratio.num_pos_of_div? wanted usable quotient)
        reduces.lowest.positive reduces.words
      exact between_one.div (bounds.mul ratio_bounds (by norm_num) (by norm_num)) (by norm_num)
        (by norm_num)
  case isFalse =>
    obtain ⟨rfl, rfl⟩ := Prod.mk.inj (Except.ok.inj found)
    obtain ⟨value, holds, above, below⟩ := between_one.div bounds (by norm_num) (by norm_num)
    exact ⟨value, holds, le_trans (by norm_num) above, below.trans (by norm_num)⟩

theorem between_fpsFactor {slowmo : Float} {target rate : Ratio} {retiming : Retiming}
    (bounds : Between (-4) 4 slowmo) (computed : compute slowmo target rate = .ok retiming) :
    Between (-67) 67 retiming.fpsFactor := by
  obtain ⟨usable, frameRate, found⟩ := factor_of_compute computed
  exact between_factor bounds usable found

end Retiming

/-! The kernel. -/

theorem StageOptions.builds {options : StageOptions} {link : Link} {settings : StreamSettings}
    (valid : options.validate = .ok ()) (asked : options.settings? link = .ok settings)
    (model : Model) : ∃ kernel, Kernel.build (settings.specFor model link) = .ok kernel := by
  cases options with
  | pose o =>
    cases asked
    exact ⟨_, rfl⟩
  | estimation o =>
    cases asked
    exact ⟨_, rfl⟩
  | upscale o =>
    cases asked
    exact ⟨_, rfl⟩
  | stabilization o =>
    cases asked
    exact ⟨_, rfl⟩
  | interpolation o =>
    simp only [settings?] at asked
    cases computed : Retiming.compute o.slowmo o.fps link.frameRate with
    | error cause => simp [computed, Except.map] at asked
    | ok retiming =>
      simp only [computed, Except.map, Except.ok.injEq] at asked
      subst asked
      have bounds := Retiming.between_fpsFactor (o.between_slowmo valid) computed
      obtain ⟨finite, positive⟩ := bounds.narrow (by norm_num) (by norm_num)
      have accepted : ((narrow retiming.fpsFactor).isFinite &&
          decide (0.0 < widen (narrow retiming.fpsFactor))) = true := by
        rw [finite, decide_eq_true positive]
        rfl
      exact ⟨_, if_pos accepted⟩

/-! The two checks. -/

namespace StreamSettings
variable {settings : StreamSettings} {offer : Offer} {model : Model}

/-- The model is the one that the settings name. -/
structure Names (settings : StreamSettings) (offer : Offer) (model : Model) : Prop where
  listed : model ∈ offer.models
  kind : model.kind = settings.kind
  name : model.name = settings.model

/-- The device is there: any selector from the automatic one to that of all processors. -/
def Placed (settings : StreamSettings) (offer : Offer) : Prop :=
  -2 ≤ settings.device ∧ settings.device ≤ offer.gpus

/-- Nothing stands against the request. -/
structure Granted (settings : StreamSettings) (offer : Offer) (model : Model) : Prop where
  named : settings.Names offer model
  placed : settings.Placed offer
  scaled : settings.scale ∈ model.scales
  available : model.installed = true ∨ settings.mayDownload = true

/-- Why the request is refused: the first of four faults that it has. -/
inductive Refused (settings : StreamSettings) (offer : Offer) : EngineError → Prop
  | unknownModel (unnamed : ∀ model, ¬ settings.Names offer model) :
      Refused settings offer (.unknownModel settings.model settings.kind)
  | invalidDevice {model : Model} (named : settings.Names offer model)
      (elsewhere : ¬ settings.Placed offer) :
      Refused settings offer (.invalidDevice settings.device offer.gpus)
  | invalidScale {model : Model} (named : settings.Names offer model)
      (placed : settings.Placed offer) (unscaled : settings.scale ∉ model.scales) :
      Refused settings offer (.invalidScale model.name settings.scale model.scales)
  | downloadDenied {model : Model} (named : settings.Names offer model)
      (placed : settings.Placed offer) (scaled : settings.scale ∈ model.scales)
      (absent : model.installed = false) (denied : settings.mayDownload = false) :
      Refused settings offer (.downloadDenied model.name)

theorem granted_or_refused (settings : StreamSettings) (offer : Offer) :
    (∃ model, settings.Granted offer model) ∨ ∃ cause, settings.Refused offer cause := by
  by_cases known : ∃ model, settings.Names offer model
  · obtain ⟨model, named⟩ := known
    by_cases placed : settings.Placed offer
    · by_cases scaled : settings.scale ∈ model.scales
      · by_cases available : model.installed = true ∨ settings.mayDownload = true
        · exact .inl ⟨model, named, placed, scaled, available⟩
        · rw [not_or, Bool.not_eq_true, Bool.not_eq_true] at available
          exact .inr ⟨_, .downloadDenied named placed scaled available.1 available.2⟩
      · exact .inr ⟨_, .invalidScale named placed scaled⟩
    · exact .inr ⟨_, .invalidDevice named placed⟩
  · exact .inr ⟨_, .unknownModel fun model named => known ⟨model, named⟩⟩

theorem Refused.ne_invalidParameters {cause : EngineError} (refused : settings.Refused offer cause)
    (reason : String) : cause ≠ .invalidParameters reason := by
  rintro rfl
  cases refused

theorem checkModel_of_unnamed (unnamed : ∀ model, ¬ settings.Names offer model) :
    offer.checkModel settings.kind settings.model =
      .error (.unknownModel settings.model settings.kind) := by
  cases known : offer.checkModel settings.kind settings.model with
  | ok model =>
    obtain ⟨listed, kind, name⟩ := Offer.of_checkModel known
    exact absurd ⟨listed, kind, name⟩ (unnamed model)
  | error cause =>
    unfold Offer.checkModel at known
    split at known
    · cases known
    · exact known.symm

theorem checkDevice_of_placed (placed : settings.Placed offer) :
    offer.checkDevice settings.device = .ok () :=
  if_neg (not_or.mpr ⟨not_lt.mpr placed.1, not_lt.mpr placed.2⟩)

theorem checkDevice_of_not_placed (elsewhere : ¬ settings.Placed offer) :
    offer.checkDevice settings.device = .error (.invalidDevice settings.device offer.gpus) := by
  rw [Placed, not_and_or, not_le, not_le] at elsewhere
  exact if_pos elsewhere

end StreamSettings

namespace Simulated
variable {engine : Simulated} {settings : StreamSettings} {model : Model}

theorem catalog_distinct : ∀ model ∈ catalog, ∀ other ∈ catalog,
    model.kind = other.kind → model.name = other.name → model = other := by
  decide

theorem plain_processorName {model : Model} (listed : model ∈ catalog) (index : Int) :
    (processorName model.name index).toList.contains '\x00' = false := by
  have plain : ∀ model ∈ catalog, '\x00' ∉ model.name.toList := by decide
  rw [Bool.eq_false_iff, ne_eq, List.contains_iff_mem, processorName, String.toList_append,
    String.toList_append, List.mem_append, List.mem_append]
  rintro ((inside | inside) | inside)
  · exact plain model listed inside
  · exact absurd inside (by decide)
  · exact absurd (Text.isDigit_of_mem_toString inside (by decide)) (by decide)

theorem checkModel_of_names (named : settings.Names engine.offer model) :
    engine.offer.checkModel settings.kind settings.model = .ok model := by
  cases known : engine.offer.checkModel settings.kind settings.model with
  | ok other =>
    obtain ⟨listed, kind, name⟩ := Offer.of_checkModel known
    rw [catalog_distinct model named.listed other listed (named.kind.trans kind.symm)
      (named.name.trans name.symm)]
  | error cause =>
    have there : model ∈ engine.offer.modelsOf settings.kind :=
      List.mem_filter.mpr ⟨named.listed, by simpa using named.kind⟩
    unfold Offer.checkModel at known
    split at known
    next => cases known
    next missing =>
      exact absurd named.name (by simpa using List.find?_eq_none.mp missing model there)

theorem verify_of_names (named : settings.Names engine.offer model) :
    settings.verify engine.offer =
      (engine.offer.checkDevice settings.device).bind fun _ =>
        (model.checkScale settings.scale).bind fun _ =>
          (model.checkDownload settings.mayDownload).map fun _ => model := by
  rw [StreamSettings.verify, checkModel_of_names named]
  rfl

theorem verify_of_granted (granted : settings.Granted engine.offer model) :
    settings.verify engine.offer = .ok model := by
  have scaled : model.checkScale settings.scale = .ok () := if_pos granted.scaled
  have available : model.checkDownload settings.mayDownload = .ok () :=
    if_pos (by simpa using granted.available)
  rw [verify_of_names granted.named, StreamSettings.checkDevice_of_placed granted.placed, scaled,
    available]
  rfl

theorem verify_of_refused {cause : EngineError} (refused : settings.Refused engine.offer cause) :
    settings.verify engine.offer = .error cause := by
  cases refused with
  | unknownModel unnamed =>
    rw [StreamSettings.verify, StreamSettings.checkModel_of_unnamed unnamed]
    rfl
  | invalidDevice named elsewhere =>
    rw [verify_of_names named, StreamSettings.checkDevice_of_not_placed elsewhere]
    rfl
  | @invalidScale model named placed unscaled =>
    have refused : model.checkScale settings.scale =
      .error (.invalidScale model.name settings.scale model.scales) := if_neg unscaled
    rw [verify_of_names named, StreamSettings.checkDevice_of_placed placed, refused]
    rfl
  | @downloadDenied model named placed scaled absent denied =>
    have scaled : model.checkScale settings.scale = .ok () := if_pos scaled
    have refused : model.checkDownload settings.mayDownload = .error (.downloadDenied model.name) :=
      if_neg (by simp [absent, denied])
    rw [verify_of_names named, StreamSettings.checkDevice_of_placed placed, scaled, refused]
    rfl

/-- What is refused before the processor is created is just what has one of the four faults. -/
theorem verify_eq_error_iff {cause : EngineError} :
    settings.verify engine.offer = .error cause ↔ settings.Refused engine.offer cause := by
  refine ⟨fun refused => ?_, verify_of_refused⟩
  rcases settings.granted_or_refused engine.offer with ⟨model, granted⟩ | ⟨other, fault⟩
  · rw [verify_of_granted granted] at refused
    cases refused
  · rw [verify_of_refused fault] at refused
    exact Except.error.inj refused ▸ fault

/-- The request filled in from the settings is checked once more as they were, and then the kernel
is built. -/
theorem create_specFor (engine : Simulated) (settings : StreamSettings) {model : Model}
    (named : model.name = settings.model) (link : Link) :
    ∃ opened : Kernel → Processor, engine.create (settings.specFor model link) =
      (settings.verify engine.offer).bind fun _ =>
        (Kernel.build (settings.specFor model link)).map opened := by
  refine ⟨fun kernel => ⟨link.width, link.height,
    Kernel.Stabilization.cropOf? (settings.specFor model link), engine.rejectEvery,
    .start kernel, 0, false⟩, ?_⟩
  have asked : (settings.specFor model link).model = settings.model := named
  have same : (settings.specFor model link).kind = settings.kind ∧
      (settings.specFor model link).device = settings.device ∧
      (settings.specFor model link).scale = settings.scale ∧
      (settings.specFor model link).mayDownload = settings.mayDownload := ⟨rfl, rfl, rfl, rfl⟩
  rw [create, asked, same.1, same.2.1, same.2.2.1, same.2.2.2, StreamSettings.verify]
  cases known : engine.offer.checkModel settings.kind settings.model with
  | error cause => rfl
  | ok found =>
    have plain : (settings.specFor model link).name.toList.contains '\x00' = false := by
      obtain ⟨listed, -, name⟩ := Offer.of_checkModel known
      have same : (settings.specFor model link).name =
          processorName found.name settings.processorIndex :=
        congrArg (processorName · settings.processorIndex) (named.trans name.symm)
      rw [same]
      exact plain_processorName listed settings.processorIndex
    cases engine.offer.checkDevice settings.device with
    | error cause => rfl
    | ok _ =>
      cases scaled : found.checkScale settings.scale with
      | error cause => simp only [bind, Except.bind, scaled]
      | ok _ =>
        -- the download check is written differently in the two places
        simp only [bind, Except.bind, scaled, Model.checkDownload, plain]
        cases found.installed <;> cases settings.mayDownload <;>
          cases Kernel.build (settings.specFor model link) <;> rfl

theorem resolve_eq_error_iff {link : Link} {fault : StageError} :
    settings.resolve engine.offer link = .error fault ↔
      (∃ cause, fault = .create cause ∧ settings.Refused engine.offer cause) ∨
        fault = .fault .overflow ∧ (∃ model, settings.Granted engine.offer model) ∧
          ¬ (settings.outputLink link).InWords := by
  rcases settings.granted_or_refused engine.offer with ⟨model, granted⟩ | ⟨other, refused⟩
  · have unrefused (cause : EngineError) : ¬ settings.Refused engine.offer cause := by
      rw [← verify_eq_error_iff, verify_of_granted granted]
      exact nofun
    have some_granted : ∃ model, settings.Granted engine.offer model := ⟨model, granted⟩
    by_cases words : (settings.outputLink link).InWords <;>
      simp [StreamSettings.resolve, verify_of_granted granted, words, unrefused, some_granted,
        eq_comm]
  · have ungranted : ¬ ∃ model, settings.Granted engine.offer model := by
      rintro ⟨model, granted⟩
      have refusal := verify_of_refused refused
      rw [verify_of_granted granted] at refusal
      cases refusal
    simp [StreamSettings.resolve, verify_of_refused refused, ← verify_eq_error_iff, ungranted,
      eq_comm]

theorem create_eq_error_iff {link : Link} {cause : EngineError}
    (builds : ∃ kernel, Kernel.build (settings.specFor model link) = .ok kernel)
    (named : model.name = settings.model) :
    engine.create (settings.specFor model link) = .error cause ↔
      settings.Refused engine.offer cause := by
  obtain ⟨opened, created⟩ := create_specFor engine settings named link
  obtain ⟨kernel, built⟩ := builds
  rw [created, built, ← verify_eq_error_iff]
  cases settings.verify engine.offer <;> simp [Except.bind, Except.map]

theorem create_of_resolve {link outLink : Link} {spec : ProcessorSpec}
    (builds : ∀ model, ∃ kernel, Kernel.build (settings.specFor model link) = .ok kernel)
    (resolved : settings.resolve engine.offer link = .ok (spec, outLink)) :
    ∃ p, engine.create spec = .ok p := by
  obtain ⟨model, verified, rfl, -, -⟩ := StreamSettings.resolve_eq_ok_iff.mp resolved
  rcases settings.granted_or_refused engine.offer with ⟨other, granted⟩ | ⟨cause, refused⟩
  · obtain rfl : other = model :=
      Except.ok.inj ((verify_of_granted granted).symm.trans verified)
    obtain ⟨opened, created⟩ := create_specFor engine settings granted.named.name link
    obtain ⟨kernel, built⟩ := builds other
    rw [verified, built] at created
    exact ⟨_, created⟩
  · rw [verify_of_refused refused] at verified
    cases verified

/-- Valid options, as one stage asks for them on one link: the processor is created just when the
request passes the checks before, a refusal there is the first of its four faults, and the creation
refuses for the same reason and for no other. What passes can only ask for outputs that are larger
than words can say. -/
theorem creation_agrees {options : StageOptions} {link : Link} {settings : StreamSettings}
    (valid : options.validate = .ok ()) (asked : options.settings? link = .ok settings)
    (engine : Simulated) :
    (∀ spec outLink, settings.resolve engine.offer link = .ok (spec, outLink) →
      ∃ p, engine.create spec = .ok p) ∧
    (∀ fault, settings.resolve engine.offer link = .error fault ↔
      (∃ cause, fault = .create cause ∧ settings.Refused engine.offer cause) ∨
        fault = .fault .overflow ∧ (∃ model, settings.Granted engine.offer model) ∧
          ¬ (settings.outputLink link).InWords) ∧
    ∀ model : Model, model.name = settings.model →
      (∀ cause, engine.create (settings.specFor model link) = .error cause ↔
        settings.resolve engine.offer link = .error (.create cause)) ∧
      ∀ reason,
        engine.create (settings.specFor model link) ≠ .error (.invalidParameters reason) := by
  have builds := StageOptions.builds valid asked
  refine ⟨fun spec outLink => create_of_resolve builds, fun fault => resolve_eq_error_iff,
    fun model named => ⟨fun cause => ?_, fun reason refused => ?_⟩⟩
  · rw [create_eq_error_iff (builds model) named, resolve_eq_error_iff]
    simp
  · have fault := (create_eq_error_iff (builds model) named).mp refused
    exact fault.ne_invalidParameters reason rfl

/-- A conversion from 24 to 60 frames at half the speed on the third device: an engine with three of
them creates the processor, one with two refuses it, before and at the creation. -/
theorem creation_agrees_third_device :
    let o : InterpolationOptions := { device := { index := 3 }, slowmo := 2.0, fps := ⟨60, 1⟩ }
    let link : Link := ⟨64, 48, .rgb48, ⟨1, 24⟩, ⟨24, 1⟩, .one⟩
    let model : Model := ⟨"chr-1", .frameInterpolation, [1], true⟩
    (StageOptions.interpolation o).validate = .ok () ∧
      ∃ settings, (StageOptions.interpolation o).settings? link = .ok settings ∧
        (∃ p, (start 3 none).create (settings.specFor model link) = .ok p) ∧
        (start 2 none).create (settings.specFor model link) = .error (.invalidDevice 3 2) := by
  intro o link model
  have valid : (StageOptions.interpolation o).validate = .ok () := by decide +kernel
  have computes : (Retiming.compute o.slowmo o.fps link.frameRate).isOk = true := by decide +kernel
  cases computed : Retiming.compute o.slowmo o.fps link.frameRate with
  | error cause =>
    rw [computed] at computes
    cases computes
  | ok retiming =>
    have asked : (StageOptions.interpolation o).settings? link = .ok (o.settings retiming) := by
      rw [StageOptions.settings?, computed]
      rfl
    refine ⟨valid, _, asked, ?_, ?_⟩
    · exact (creation_agrees valid asked (start 3 none)).1 _ _ rfl
    · exact (((creation_agrees valid asked (start 2 none)).2.2 model rfl).1 _).mpr rfl

end Simulated

end FrameRelay
