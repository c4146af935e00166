import Pinhole.Config.Load

/-!
# Starting a settings file

The example that a new settings file is made from, and making one. A file that exists is not
replaced unless that is asked for.
-/

namespace Pinhole.Config

/-- The example of a settings file. -/
def exampleText : String :=
  "# Firewall Daemon Configuration

firewall:
  platform: linux             # linux, android
  # Tool paths default to the platform's locations
  # iptables_path: /sbin/iptables
  # ip6tables_path: /sbin/ip6tables
  # ip_path: /bin/ip
  unprivileged_user: nobody   # commands drop to this user with NET_ADMIN/NET_RAW
  ipv6_always_enabled: false  # true: ip6tables failures are never tolerated
  user_traffic_mark: \"1\"
  user_traffic_table: \"1\"
  # command_timeout: 30

audit:
  enabled: true
  log_path: /var/log/fwd/audit.log
"

/-- Makes a settings file from the example, with the directories that lead to it. The tree is what
is left even when this fails.

A tree knows nothing of permissions. That everybody may read the file in the end, and that this can
be allowed, is left out. -/
def init (t : Files.Tree) (path : Path) (force : Bool) : Except Problem Unit × Files.Tree :=
  match t.contains path with
  | .error f => (.error (.unforeseen (.file f)), t)
  | .ok found =>
    if found && !force then
      (.error (.failed (.configuration ("Configuration file already exists: " ++ path.text)
        (some "Use --force to overwrite"))), t)
    else
      match t.makeDirectories path.parent with
      | (.error f, t) => (.error (.unforeseen (.file f)), t)
      | (.ok (), t) =>
        match t.write path (Files.encode exampleText) with
        | .error f => (.error (.unforeseen (.file f)), t)
        | .ok t => (.ok (), t)

end Pinhole.Config
