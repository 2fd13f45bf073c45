import Mathlib.Data.List.Perm.Basic

/-! # Holders of signal connections

What is relied on of a signal library. A holder keeps connections of callbacks to the signals of
senders: connecting adds one callback to the sender's signal, and clearing drops them all. An
invocation of a signal runs every callback connected to it once.
-/

namespace Lib

universe u v w

class SignalHolder (Holder : Type u) (Sender : outParam (Type v)) (Callback : outParam (Type w)) where
  empty : Holder
  managedConnect : Holder → Sender → Callback → Holder
  clear : Holder → Holder
  /-- The callbacks an invocation of the sender's signal runs. -/
  callbacks : Holder → Sender → List Callback
  callbacks_empty (sender : Sender) : callbacks empty sender = []
  callbacks_managedConnect (holder : Holder) (sender : Sender) (callback : Callback) :
    (callbacks (managedConnect holder sender callback) sender).Perm
      (callback :: callbacks holder sender)
  callbacks_managedConnect_of_ne (holder : Holder) {sender other : Sender} (callback : Callback) :
    other ≠ sender → callbacks (managedConnect holder sender callback) other = callbacks holder other
  callbacks_clear (holder : Holder) (sender : Sender) : callbacks (clear holder) sender = []

namespace SignalHolder

/-- Connections kept in a list, in the order they were made. -/
instance ofList {Sender : Type v} {Callback : Type w} [DecidableEq Sender] :
    SignalHolder (List (Sender × Callback)) Sender Callback where
  empty := []
  managedConnect holder sender callback := holder ++ [(sender, callback)]
  clear _ := []
  callbacks holder sender := (holder.filter fun connection => connection.1 = sender).map Prod.snd
  callbacks_empty _ := rfl
  callbacks_managedConnect holder sender callback := by
    simp
  callbacks_managedConnect_of_ne holder sender other callback hNe := by simp [Ne.symm hNe]
  callbacks_clear _ _ := rfl

end SignalHolder

end Lib
