import DbApi.Library.Bytes

namespace DbApi.Sql
open Library

structure InsertStatement where
  tableName : Bytes
  columns : List Bytes
  values : List Bytes
deriving DecidableEq

structure WhereClause where
  column : Bytes
  value : Bytes
deriving DecidableEq

/-- `whereClause` stands for `has_where` and the two fields it guards. -/
structure SelectStatement where
  tableName : Bytes
  columns : List Bytes
  selectAll : Bool
  whereClause : Option WhereClause
deriving DecidableEq

inductive Statement where
  | insert (statement : InsertStatement)
  | select (statement : SelectStatement)
deriving DecidableEq

end DbApi.Sql
