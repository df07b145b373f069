import ComponentSync.Yaml.Event.Stream
/-!
A loaded YAML document: the node events of the first document of a text, with each alias
pointing at the event its anchor was set on, and the error, if any, that ended the events
early. An empty text loads as one empty document; an alias whose anchor was not set before it
ends the document there.
-/
namespace ComponentSync.Yaml

inductive Item
  /-- An alias, by the index of the event that carries its anchor. -/
  | alias (target : Nat)
  | scalar (tag : Option String) (text : String) (style : ScalarStyle)
  | sequenceStart (tag : Option String)
  | sequenceEnd
  | mappingStart (tag : Option String)
  | mappingEnd
  /-- The whole of an empty text. -/
  | void
  deriving Repr, Inhabited

inductive LoadError
  | malformed (e : SyntaxError)
  | unknownAnchor (at_ : Mark)
  deriving Repr, Inhabited

/-- The node events of a document, each with where it starts, and the error that ended them
early. -/
structure Document where
  items : Array (Item × Mark)
  error : Option LoadError
  deriving Inhabited

/-- The node events of one document, read from `events` up to the end of that document.
Returns the document, `none` when the stream ends before one starts (except for the first),
and the events after it. -/
def Document.take (first : Bool) (events : List Event) (failure : Option SyntaxError) :
    Option Document × List Event :=
  let rec go (anchors : List (String × Nat)) (items : Array (Item × Mark)) :
      List Event → Option Document × List Event
    | [] => (some ⟨items, failure.map .malformed⟩, [])
    | e :: rest =>
      let note (anchor : Option String) : List (String × Nat) :=
        match anchor with
        | some a => (a, items.size) :: anchors
        | none => anchors
      match e.kind with
      | .streamStart | .documentStart _ => go anchors items rest
      | .streamEnd =>
        if first then
          let items := if items.isEmpty then items.push (.void, e.start) else items
          (some ⟨items, none⟩, rest)
        else (none, rest)
      | .documentEnd _ => (some ⟨items, none⟩, rest)
      | .alias name =>
        match anchors.lookup name with
        | some target => go anchors (items.push (.alias target, e.start)) rest
        | none => (some ⟨items, some (.unknownAnchor e.start)⟩, rest)
      | .scalar anchor tag text style =>
        go (note anchor) (items.push (.scalar tag text style, e.start)) rest
      | .sequenceStart anchor tag _ => go (note anchor) (items.push (.sequenceStart tag, e.start)) rest
      | .sequenceEnd => go anchors (items.push (.sequenceEnd, e.start)) rest
      | .mappingStart anchor tag _ => go (note anchor) (items.push (.mappingStart tag, e.start)) rest
      | .mappingEnd => go anchors (items.push (.mappingEnd, e.start)) rest
  go [] #[] events

/-- The first document of a text, and whether another document (or an error after the first)
follows it. -/
def Document.load (text : String) : Document × Bool :=
  let (events, failure) := Event.listOf text
  match Document.take true events failure with
  | (some doc, rest) =>
    let more := match rest with
      | [] => failure.isSome && doc.error.isNone
      | e :: _ => match e.kind with
        | .streamEnd => false
        | _ => true
    (doc, more)
  | (none, _) => (⟨#[], failure.map .malformed⟩, false)

end ComponentSync.Yaml
