import QuizApp.Quiz.Screen

namespace QuizApp.Quiz

open Js

def texts (entries : List (String × String)) : List (JsString × JsString) :=
  entries.map fun e => (.lit e.1, .lit e.2)

def customData : CustomData where
  questions.entries := texts [
    ("1", "Far-right protestors tried to storm the Parliament building in which country?"),
    ("2", "Why did Shinzo Abe, prime minister of Japan, resign from office?"),
    ("3", "What did two commercial jet pilots reported seeing in the busy airspace near Los Angeles International Airport?"),
    ("4", "After more than seven decades of absence, jaguars are being reintroduced into the wetlands of which country?")]
  questions.nodup := by decide
  options.entries := [
    (.lit "1", {
      entries := texts [
        ("1", "Australia"),
        ("2", "Britain"),
        ("3", "France"),
        ("4", "Germany")]
      nodup := by decide }),
    (.lit "2", {
      entries := texts [
        ("1", "An extramarital affair"),
        ("2", "Fraud"),
        ("3", "Illness"),
        ("4", "Protests")]
      nodup := by decide }),
    (.lit "3", {
      entries := texts [
        ("1", "An attack drone"),
        ("2", "A man with a jetpack"),
        ("3", "A girl attached to a kite"),
        ("4", "A U.F.O.")]
      nodup := by decide }),
    (.lit "4", {
      entries := texts [
        ("1", "Argentina"),
        ("2", "Belize"),
        ("3", "Colombia"),
        ("4", "Mexico")]
      nodup := by decide })]
  options.nodup := by decide
  answers.entries := texts [
    ("1", "Germany"),
    ("2", "Illness"),
    ("3", "A man with a jetpack"),
    ("4", "Argentina")]
  answers.nodup := by decide

def bank : Bank 4 where
  customData := customData
  pos := by decide
  questions_keys := by decide
  options_keys := by decide
  answers_keys := by decide

end QuizApp.Quiz
