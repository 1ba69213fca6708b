namespace StatusPage

inductive Locale where
  | enUS
  | deDE
  | frFR
  | ruRU
  | deCH
deriving DecidableEq

namespace Locale

def default : Locale := .enUS

def all : List Locale := [.enUS, .deDE, .frFR, .ruRU, .deCH]

def tag : Locale → String
  | .enUS => "en-US"
  | .deDE => "de-DE"
  | .frFR => "fr-FR"
  | .ruRU => "ru-RU"
  | .deCH => "de-CH"

def groupSeparator : Locale → Char
  | .enUS => ','
  | .deDE => '.'
  | .frFR => '\u202F'
  | .ruRU => '\u00A0'
  | .deCH => '\u2019'

def decimalSeparator : Locale → Char
  | .enUS | .deCH => '.'
  | .deDE | .frFR | .ruRU => ','

end Locale

end StatusPage
