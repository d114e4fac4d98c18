import QuizApp.Js.Text

namespace QuizApp

open Js

inductive Route
  | homeScreen | quizScreen
  deriving DecidableEq

/-- AsyncStorage: a persistent map from strings to strings, `none` for an absent key. -/
abbrev Storage := String → Option JsString

def Storage.setItem (st : Storage) (key : String) (value : JsString) : Storage :=
  Function.update st key (some value)

/-- What one step of a screen does outside its own state.  A native function is
called in one step and carries out its work in a later one. -/
inductive Effect
  | callWriteFile (content : JsString)
  | storeFile (content : JsString)
  | storeItem (key : String) (value : JsString)
  | replace (name : Route)
  | alert (message : String)
  | unhandledRejection (error : JsError)
  deriving DecidableEq

end QuizApp
