/-
The action codes both servers switch on (`ACTIONS` in `logic_server.h`; the
data server's enumeration is the same one without `PING`).
-/
import Mathlib.Data.List.Basic

namespace FinalServer

inductive Action
  | validateUser | createUser | getUserInfo | createChat | addToGroupChat | sendMessage
  | getChats | getChatMessages | getChatInfo | removeFromChat | exitChat | ping
  deriving DecidableEq, Repr

namespace Action

/-- The value of the enumerator. -/
def code : Action → Int
  | validateUser => 0
  | createUser => 2
  | getUserInfo => 3
  | createChat => 4
  | addToGroupChat => 5
  | sendMessage => 6
  | getChats => 7
  | getChatMessages => 8
  | getChatInfo => 9
  | removeFromChat => 10
  | exitChat => 11
  | ping => 100

/-- Every action, by code. -/
def all : List Action :=
  [validateUser, createUser, getUserInfo, createChat, addToGroupChat, sendMessage, getChats,
    getChatMessages, getChatInfo, removeFromChat, exitChat, ping]

/-- The `case` an `int` selects, if any. -/
def ofCode (n : Int) : Option Action := all.find? fun a => a.code == n

@[simp] theorem ofCode_code (a : Action) : ofCode a.code = some a := by cases a <;> rfl

theorem ofCode_eq_some {n : Int} {a : Action} : ofCode n = some a ↔ n = a.code := by
  constructor
  · intro h
    have hc := List.find?_some h
    rw [beq_iff_eq] at hc
    exact hc.symm
  · rintro rfl
    exact ofCode_code a

end Action

end FinalServer
