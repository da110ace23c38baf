import ModelCatalog.Entry

/-! # Capabilities

    The tags that tell what a model can do.  An entry has a tag for each flag that is set, and one for
    each kind of content that it lists as input or output (`Entry.tags`).  Tags are listed in the order
    of their names. -/

namespace ModelCatalog

inductive Capability where
  | audioInput
  | audioOutput
  | imageInput
  | imageOutput
  | reasoning
  | structuredOutput
  | textInput
  | textOutput
  | toolCall
  | videoInput
  | videoOutput
  deriving DecidableEq, Repr

/-- A kind of content that capabilities are about. -/
inductive Modality where
  | text
  | audio
  | image
  | video
  deriving DecidableEq, Repr

namespace Modality

def name : Modality → String
  | text => "text"
  | audio => "audio"
  | image => "image"
  | video => "video"

def ofName? (s : String) : Option Modality := [text, audio, image, video].find? (·.name == s)

/-- The kinds of content in a list of names; other names are of no interest. -/
def ofNames (names : List String) : List Modality := names.filterMap ofName?

/-- The tag of a model that takes a kind of content. -/
def inputTag : Modality → Capability
  | text => .textInput
  | audio => .audioInput
  | image => .imageInput
  | video => .videoInput

/-- The tag of a model that gives a kind of content. -/
def outputTag : Modality → Capability
  | text => .textOutput
  | audio => .audioOutput
  | image => .imageOutput
  | video => .videoOutput

end Modality

namespace Capability

/-- All tags, in the order of their names. -/
def all : List Capability :=
  [audioInput, audioOutput, imageInput, imageOutput, reasoning, structuredOutput, textInput,
   textOutput, toolCall, videoInput, videoOutput]

def name : Capability → String
  | audioInput => "AudioInputSupport"
  | audioOutput => "AudioOutputSupport"
  | imageInput => "ImageInputSupport"
  | imageOutput => "ImageOutputSupport"
  | reasoning => "ReasoningSupport"
  | structuredOutput => "StructuredOutputSupport"
  | textInput => "TextInputSupport"
  | textOutput => "TextOutputSupport"
  | toolCall => "ToolCallSupport"
  | videoInput => "VideoInputSupport"
  | videoOutput => "VideoOutputSupport"

def ofName? (s : String) : Option Capability := all.find? (·.name == s)

end Capability

structure CapabilitySet where
  has : Capability → Bool

namespace CapabilitySet

/-- The tags of a set, in order. -/
def toList (s : CapabilitySet) : List Capability := Capability.all.filter s.has

def ofList (tags : List Capability) : CapabilitySet := ⟨fun c => decide (c ∈ tags)⟩

end CapabilitySet

/-- The flags of an entry, each with its tag.  A model that takes attachments takes images. -/
def Entry.flags (e : Entry) : List (Bool × Capability) :=
  [(e.toolCall, .toolCall), (e.reasoning, .reasoning), (e.structuredOutput, .structuredOutput),
   (e.attachment, .imageInput)]

/-- The tags of an entry, as they are come upon; one may come more than once. -/
def Entry.tags (e : Entry) : List Capability :=
  (e.flags.filter (·.1)).map (·.2) ++
    (Modality.ofNames e.modalities.input).map Modality.inputTag ++
    (Modality.ofNames e.modalities.output).map Modality.outputTag

def Entry.capabilities (e : Entry) : CapabilitySet := .ofList e.tags

end ModelCatalog
