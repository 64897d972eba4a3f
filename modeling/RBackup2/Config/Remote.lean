import RBackup2.Db.Models

/-!
# Remote configuration

`config/remote.rs`: the configuration a client has read from the database.
-/

set_option autoImplicit false

namespace RBackup2

structure RemoteConfig where
  jobs : List BackupJob
  schedules : List Schedule
  settings : HashMap String String

def RemoteConfig.getSetting (self : RemoteConfig) (key : String) : Option String :=
  self.settings.lookup key

def RemoteConfig.repositoryUrl (self : RemoteConfig) : Option String :=
  self.getSetting "repository_url"

def RemoteConfig.repositoryPassword (self : RemoteConfig) : Option String :=
  self.getSetting "repository_password"

def RemoteConfig.repositoryCacheDir (self : RemoteConfig) : Option String :=
  self.getSetting "repository_cache_dir"

/-- A configuration of nothing but a repository and its password. -/
def RemoteConfig.ofRepository (url password : String) : RemoteConfig where
  jobs := []
  schedules := []
  settings := ((∅ : HashMap String String).insert "repository_url" url).insert
    "repository_password" password

end RBackup2
