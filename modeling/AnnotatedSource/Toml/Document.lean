import AnnotatedSource.Value

set_option autoImplicit false

/-!
# TOML documents

A document as it grows line by line. What a header or a key may still add to a table depends on how
the table came about, so each one remembers it until the whole document is read.
-/
namespace AnnotatedSource

namespace Toml.Date

structure Limits where
  hour : Nat
  zoneHour : Nat
  zoneMinute : Nat
deriving DecidableEq, Repr

def written : Limits := ⟨23, 23, 59⟩

/-- What a text may hold that is to be read as a date. A distance is limited as a whole only. -/
def held : Limits := ⟨24, 99, 99⟩

def twoDigits? (low high : Nat) : List Char → Option (List Char × List Char)
  | a :: b :: rest =>
    match Text.number? 10 [a, b] with
    | some n => if low ≤ n ∧ n ≤ high then some ([a, b], rest) else none
    | none => none
  | _ => none

def daysIn (year month : Nat) : Nat :=
  if month = 2 then
    if year % 4 = 0 ∧ (year % 100 ≠ 0 ∨ year % 400 = 0) then 29 else 28
  else if month = 4 ∨ month = 6 ∨ month = 9 ∨ month = 11 then 30 else 31

def day? : List Char → Option (List Char × List Char)
  | a :: b :: c :: d :: '-' :: rest =>
    match Text.number? 10 [a, b, c, d], twoDigits? 1 12 rest with
    | some year, some (month, '-' :: afterMonth) =>
      match twoDigits? 1 (daysIn year ((Text.number? 10 month).getD 0)) afterMonth with
      | some (day, after) => some ([a, b, c, d, '-'] ++ month ++ '-' :: day, after)
      | none => none
    | _, _ => none
  | _ => none

/-- A fraction of a second to nine places; zeros at its end are not written. -/
def secondFraction? : List Char → Option (List Char × List Char)
  | '.' :: rest =>
    match rest.takeWhile Text.isDecimal with
    | [] => none
    | ds =>
      let kept := ((ds.take 9).reverse.dropWhile (· == '0')).reverse
      some (if kept.isEmpty then [] else '.' :: kept, rest.dropWhile Text.isDecimal)
  | text => some ([], text)

def time? (limits : Limits) (text : List Char) : Option (List Char × List Char) :=
  match twoDigits? 0 limits.hour text with
  | some (hour, ':' :: afterHour) =>
    match twoDigits? 0 59 afterHour with
    | some (minute, ':' :: afterMinute) =>
      match twoDigits? 0 60 afterMinute with
      | some (second, afterSecond) =>
        (secondFraction? afterSecond).map fun (fraction, after) =>
          (hour ++ ':' :: minute ++ ':' :: second ++ fraction, after)
      | none => none
    | _ => none
  | _ => none

def padded (n : Nat) : List Char := (if n < 10 then ['0'] else []) ++ Nat.toDigits 10 n

/-- A distance of so many minutes, at most a day. None at all is written with a plus sign. -/
def distance? (sign : Char) (minutes : Nat) : Option (List Char) :=
  if minutes ≤ 24 * 60 then
    some ((if minutes = 0 then '+' else sign) :: padded (minutes / 60) ++ ':' :: padded (minutes % 60))
  else none

def zone (limits : Limits) (text : List Char) : List Char × List Char :=
  match text with
  | 'Z' :: rest => (['Z'], rest)
  | 'z' :: rest => (['Z'], rest)
  | sign :: rest =>
    if sign = '+' ∨ sign = '-' then
      match twoDigits? 0 limits.zoneHour rest with
      | some (hour, ':' :: afterHour) =>
        match twoDigits? 0 limits.zoneMinute afterHour with
        | some (minute, after) =>
          let minutes := (Text.number? 10 hour).getD 0 * 60 + (Text.number? 10 minute).getD 0
          match distance? sign minutes with
          | some shown => (shown, after)
          | none => ([], text)
        | none => ([], text)
      | _ => ([], text)
    else ([], text)
  | [] => ([], [])

def read? (limits : Limits) (text : List Char) : Option (List Char × List Char) :=
  match day? text with
  | some (day, c :: rest) =>
    if c = 'T' ∨ c = 't' ∨ c = ' ' then
      match time? limits rest with
      | some (time, afterTime) =>
        let (shown, after) := zone limits afterTime
        some (day ++ 'T' :: time ++ shown, after)
      | none => some (day, c :: rest)
    else some (day, c :: rest)
  | some (day, []) => some (day, [])
  | none => time? limits text

def ofText? (text : String) : Option String :=
  match read? held text.toList with
  | some (shown, []) => some (String.ofList shown)
  | _ => none

end Toml.Date

namespace Toml

inductive Item where
  | text (s : String)
  | date (s : String)
  | plain (v : Value)
  | list (items : List Item)
  | inline (entries : List (String × Item))
  /-- A table is implicit until it has a header of its own, and dotted if it was made by a key with
      points. -/
  | table (implicit dotted : Bool) (entries : List (String × Item))
  | tables (elements : List (List (String × Item)))

abbrev Entries := List (String × Item)

namespace Entries

def get? (key : String) : Entries → Option Item
  | [] => none
  | (k, item) :: rest => if k = key then some item else get? key rest

/-- Changes the table at the end of a path and makes the tables that are not there yet; where there are
    several, the last one is meant. The change is told whether the table is dotted. Nothing is under a
    value, and a dotted path leads through no table that has a header. -/
def change? (dotted : Bool) (change : Bool → Entries → Option Entries) :
    List String → Bool → Entries → Option Entries
  | [], isDotted, entries => change isDotted entries
  | key :: path, _, entries =>
    match get? key entries with
    | none =>
      (change? dotted change path dotted []).map fun inner =>
        Value.putEntry key (.table true dotted inner) entries
    | some (.table implicit wasDotted inner) =>
      if dotted && !implicit then none
      else
        (change? dotted change path wasDotted inner).map fun inner =>
          Value.putEntry key (.table implicit wasDotted inner) entries
    | some (.tables elements) =>
      match elements.getLast? with
      | none => none
      | some last =>
        (change? dotted change path false last).map fun last =>
          Value.putEntry key (.tables (elements.dropLast ++ [last])) entries
    | some _ => none

def openTable? (key : String) (_ : Bool) (parent : Entries) : Option Entries :=
  match get? key parent with
  | none => some (Value.putEntry key (.table false false []) parent)
  | some (.table true false inner) => some (Value.putEntry key (.table false false inner) parent)
  | some _ => none

def appendTable? (key : String) (_ : Bool) (parent : Entries) : Option Entries :=
  match get? key parent with
  | none => some (Value.putEntry key (.tables [[]]) parent)
  | some (.tables elements) => some (Value.putEntry key (.tables (elements ++ [[]])) parent)
  | some _ => none

/-- A key is written once. A key with points ends in a table that keys with points made, and in no
    other. -/
def assign? (plain : Bool) (key : String) (item : Item) (isDotted : Bool) (entries : Entries) :
    Option Entries :=
  if isDotted == plain then none
  else
    match get? key entries with
    | none => some (Value.putEntry key item entries)
    | some _ => none

end Entries

structure KeyPath where
  parents : List String
  key : String

namespace KeyPath

def names (p : KeyPath) : List String := p.parents ++ [p.key]

def assign? (p : KeyPath) (item : Item) (isDotted : Bool) (entries : Entries) : Option Entries :=
  Entries.change? true (Entries.assign? p.parents.isEmpty p.key item) p.parents isDotted entries

def openTable? (p : KeyPath) (root : Entries) : Option Entries :=
  Entries.change? false (Entries.openTable? p.key) p.parents false root

def appendTable? (p : KeyPath) (root : Entries) : Option Entries :=
  Entries.change? false (Entries.appendTable? p.key) p.parents false root

end KeyPath

/-- The key of a table that stands for a date, where it is the first. -/
def dateKey : String := "$__toml_private_datetime"

def Item.heldDate? : Item → Option Value
  | text s => (Date.ofText? s).map .text
  | _ => none

mutual

def Item.value? : Item → Option Value
  | .text s => some (.text s)
  | .date s => some (.text s)
  | .plain v => some v
  | .list items => (itemValues? items).map .list
  | .inline entries => tableValue? entries
  | .table _ _ entries => tableValue? entries
  | .tables elements => (tableValues? elements).map .list

def itemValues? : List Item → Option (List Value)
  | [] => some []
  | item :: rest =>
    match item.value?, itemValues? rest with
    | some v, some vs => some (v :: vs)
    | _, _ => none

def tableValue? : List (String × Item) → Option Value
  | [] => some (.table [])
  | (key, item) :: rest =>
    if key = dateKey then item.heldDate?
    else
      match item.value?, entryValues? rest with
      | some v, some vs => some (.table ((key, v) :: vs))
      | _, _ => none

def entryValues? : List (String × Item) → Option (List (String × Value))
  | [] => some []
  | (key, item) :: rest =>
    match item.value?, entryValues? rest with
    | some v, some vs => some ((key, v) :: vs)
    | _, _ => none

def tableValues? : List (List (String × Item)) → Option (List Value)
  | [] => some []
  | entries :: rest =>
    match tableValue? entries, tableValues? rest with
    | some v, some vs => some (v :: vs)
    | _, _ => none

end

def Entries.values? (root : Entries) : Option (List (String × Value)) :=
  match tableValue? root with
  | some (.table values) => some values
  | _ => none

end Toml
end AnnotatedSource
