import FrameRelay.Stage.Options

/-! Checks against an engine's catalog before a processor is created, so that a wrong request
fails while the stream is configured and not on its first frame. -/

namespace FrameRelay

/-- What an engine offers. -/
structure Offer where
  gpus : Nat
  models : List Model

namespace Offer

def modelsOf (offer : Offer) (kind : ModelType) : List Model :=
  offer.models.filter (·.kind == kind)

def checkModel (offer : Offer) (kind : ModelType) (name : String) : Except EngineError Model :=
  match (offer.modelsOf kind).find? (·.name == name) with
  | some model => .ok model
  | none => .error (.unknownModel name kind)

theorem of_checkModel {offer : Offer} {kind : ModelType} {name : String} {model : Model}
    (known : offer.checkModel kind name = .ok model) :
    model ∈ offer.models ∧ model.kind = kind ∧ model.name = name := by
  unfold checkModel at known
  split at known
  next found there =>
    cases known
    obtain ⟨listed, same⟩ := List.mem_filter.mp (List.mem_of_find?_eq_some there)
    exact ⟨listed, by simpa using same, by simpa using List.find?_some there⟩
  next => cases known

/-- A selector is automatic, the CPU, a GPU, or the number of GPUs for all of them. -/
def checkDevice (offer : Offer) (index : Int) : Except EngineError Unit :=
  if index < -2 ∨ (offer.gpus : Int) < index then .error (.invalidDevice index offer.gpus)
  else .ok ()

end Offer

namespace Model

def checkScale (model : Model) (scale : Nat) : Except EngineError Unit :=
  if scale ∈ model.scales then .ok () else .error (.invalidScale model.name scale model.scales)

def checkDownload (model : Model) (allowed : Bool) : Except EngineError Unit :=
  if model.installed || allowed then .ok () else .error (.downloadDenied model.name)

end Model

/-- The name of the processor with the given index for a model. -/
def processorName (model : String) (index : Int) : String := model ++ "-" ++ toString index

namespace StreamSettings

/-- The model that the settings name, if the engine can run it as asked. -/
def verify (settings : StreamSettings) (offer : Offer) : Except EngineError Model := do
  let model ← offer.checkModel settings.kind settings.model
  offer.checkDevice settings.device
  model.checkScale settings.scale
  model.checkDownload settings.mayDownload
  return model

theorem of_verify {settings : StreamSettings} {offer : Offer} {model : Model}
    (verified : settings.verify offer = .ok model) :
    offer.checkModel settings.kind settings.model = .ok model ∧
      model.checkScale settings.scale = .ok () := by
  obtain ⟨_, chosen, passed⟩ := ok_of_bind verified
  obtain ⟨-, -, passed⟩ := ok_of_bind passed
  obtain ⟨⟨⟩, scaled, passed⟩ := ok_of_bind passed
  obtain ⟨-, -, last⟩ := ok_of_bind passed
  cases last
  exact ⟨chosen, scaled⟩

def specFor (settings : StreamSettings) (model : Model) (link : Link) : ProcessorSpec where
  name := processorName model.name settings.processorIndex
  index := settings.processorIndex
  model := model.name
  kind := settings.kind
  scale := settings.scale
  device := settings.device
  extraThreads := settings.extraInstances
  vramFraction := settings.vram
  mayDownload := settings.mayDownload
  width := link.width
  height := link.height
  format := link.format
  timeBase := link.timeBase.toFloat
  frameRate := link.frameRate.toFloat
  frameCount := settings.frameCount
  parameters := settings.parameters.values
  options := settings.parameters.options

def outputLink (settings : StreamSettings) (link : Link) : Link :=
  { link with width := link.width * settings.scale, height := link.height * settings.scale }

/-- The processor to create and the output link, once all checks pass. The output link is multiplied
out in words. -/
def resolve (settings : StreamSettings) (offer : Offer) (link : Link) :
    Outcome (ProcessorSpec × Link) :=
  match settings.verify offer with
  | .error cause => .error (.create cause)
  | .ok model =>
    if (settings.outputLink link).InWords then
      .ok (settings.specFor model link, settings.outputLink link)
    else .error (.fault .overflow)

theorem resolve_eq_ok_iff {settings : StreamSettings} {offer : Offer} {link outLink : Link}
    {spec : ProcessorSpec} :
    settings.resolve offer link = .ok (spec, outLink) ↔
      ∃ model, settings.verify offer = .ok model ∧ spec = settings.specFor model link ∧
        outLink = settings.outputLink link ∧ outLink.InWords := by
  unfold resolve
  cases settings.verify offer with
  | error cause => simp
  | ok model =>
    by_cases words : (settings.outputLink link).InWords
    · simp only [words, if_true, Except.ok.injEq, Prod.mk.injEq, exists_eq_left']
      exact ⟨fun ⟨spec, out⟩ => ⟨spec.symm, out.symm, out ▸ words⟩,
        fun ⟨spec, out, _⟩ => ⟨spec.symm, out.symm⟩⟩
    · simp only [words, if_false, reduceCtorEq, Except.ok.injEq, exists_eq_left', false_iff]
      rintro ⟨-, rfl, fits⟩
      exact words fits

end StreamSettings

end FrameRelay
