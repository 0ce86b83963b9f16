import C4.Dsl.Script

/-!
# Outlines

An outline is a tree of lines and blocks, each with the entity it belongs to. Read from top to
bottom it is a script in which every block is closed. The scripts of a document have outlines,
which say what stands in what.
-/
namespace C4.Dsl

inductive Item
  | line (subject : Subject) (text : String)
  /-- A block that shrinks to its header when there is nothing to put inside. -/
  | entity (subject : Subject) (header : String) (body : List Item)
  /-- A block that is always drawn with its braces. -/
  | block (subject : Subject) (header : String) (body : List Item)
  | gap (subject : Subject)
  | note (record : Record)
  | dangling (error : RenderError)

mutual

def Item.events : Item → Script
  | .line subject text => [.write subject (.line text)]
  | .entity subject header [] => [.write subject (.line header)]
  | .entity subject header (first :: rest) =>
    .write subject (.opening header) ::
      (first.events ++ eventsOf rest ++ [.write subject .closing])
  | .block subject header body =>
    .write subject (.opening header) :: (eventsOf body ++ [.write subject .closing])
  | .gap subject => [.write subject .gap]
  | .note record => [.note record]
  | .dangling error => [.stop error]

def eventsOf : List Item → Script
  | [] => []
  | item :: rest => item.events ++ eventsOf rest

end

def spaced (separator : List Item) : List (List Item) → List Item
  | [] => []
  | [] :: rest => spaced separator rest
  | (item :: items) :: rest =>
    item :: items ++
      match spaced separator rest with
      | [] => []
      | more => separator ++ more

def withToken (token : Except RenderError String) (draw : String → List Item) : List Item :=
  match token with
  | .error e => [.dangling e]
  | .ok t => draw t

end C4.Dsl
